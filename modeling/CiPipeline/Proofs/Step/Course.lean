import CiPipeline.Step.Execute
import CiPipeline.Proofs.Command

/-
The one course that steps of all kinds take. A step that begins on a host is refused at once, or it has
nothing to do, or it sets out to run one main command, if need be after finding out whether the program
for it is there (`Step.Course`). `on_execute`: what comes of a step, and how it leaves the host, is what its
course ends in there; what steps start, keep and raise is read off that.
-/

namespace CiPipeline

namespace Step

/-- A first command that finds out whether a program is there, and the error if it is not. -/
structure Probe where
  command : Command
  absent : PipelineError

/-- What a step sets out to do when it begins on a host. -/
inductive Course
  | refused (f : Fault)
  | idle (message : String)
  | working (probe : Option Probe) (main : Except Fault Command)

/-! ## Which course a step takes -/

/-- The directory of a step that begins on a host. -/
def directoryAt (s : Step) (j : Job) (root : Path) (h : Host) : Except Fault Path := do
  let path ← h.resolve (root.child ((s.cwd.filter (· ≠ "")).getD "."))
  if h.has path then return path
  .error (.noStepDirectory j.name s.name path.text)

/-- Finds out whether the container service is there. -/
def dockerProbe : Probe where
  command := { program := .words ["docker", "--version"] }
  absent := dockerUnavailable

/-- Finds out whether a linter is there. -/
def linterProbe (s : Step) (j : Job) (tool : Value) : Probe where
  command := { program := .ofValues [tool, .text "--version"] }
  absent := { Linter.unavailable tool.plain with job := j.name, step := some s.name }

/-- The main command of a shell line. -/
def shellCommand (s : Step) (j : Job) (h : Host) (path : Path) : Command :=
  { program := .line s.run, cwd := some path.text, env := some (jobEnv j h), timeout := s.timeout, reads := true }

/-- A main command of the container service. -/
def dockerCommand (s : Step) (h : Host) (root : Path) (argv : List Value) : Command :=
  { program := .ofValues argv, cwd := some root.text, env := some (h.env.map .text), timeout := s.timeout,
    reads := true }

/-- The main command of a lint check. -/
def lintCommand (j : Job) (h : Host) (path : Path) (argv : List Value) : Command :=
  { program := .ofValues argv, cwd := some path.text, env := some (jobEnv j h), reads := true }

/-- The words of a container run that begins on a host. -/
def containerArgv (s : Step) (j : Job) (root : Path) (h : Host) (r : ContainerRun Value) : Except Fault (List Value) :=
  (if r.mountRepo then h.resolve root else .ok root).map fun mounted => r.command j.env s.cwd s.run mounted.text

/-- The main command of a container run. -/
def containerMain (s : Step) (j : Job) (root : Path) (h : Host) (r : Except DataError (ContainerRun Value)) :
    Except Fault Command :=
  (r.mapError .data >>= s.containerArgv j root h).map (s.dockerCommand h root)

/-- The course of a lint check whose directory is there. -/
def lintCourse (s : Step) (j : Job) (h : Host) (t : LintTask) (path : Path) : Course :=
  match t.guard with
  | .error e => .refused (.data e)
  | .ok guard =>
    match guard.filter fun guard => !h.has (path.child guard) with
    | some guard => .idle ("[" ++ j.name ++ "] " ++ s.name ++ ": no " ++ guard ++ ", nothing to lint")
    | none => .working (s.linterProbe j t.tool) ((t.command.mapError .data).map (lintCommand j h path))

/-- The course of a step that begins on a host. -/
def course (s : Step) (j : Job) (root : Path) (h : Host) : Course :=
  match s.work.task with
  | .shell =>
    match s.directoryAt j root h with
    | .error f => .refused f
    | .ok path => .working none (.ok (s.shellCommand j h path))
  | .container r => .working dockerProbe (s.containerMain j root h r)
  | .image b => .working dockerProbe ((b.mapError .data).map fun b => s.dockerCommand h root b.command)
  | .lint t =>
    if !t.tool.isGiven then .refused (.noLinter j.name s.name)
    else
      match s.directoryAt j root h with
      | .error f => .refused f
      | .ok path => s.lintCourse j h t path
  | .unknown kind => .refused (.unknownStepKind j.name s.name kind)

/-! ## What a course ends in -/

/-- Whether a program was found to be there. -/
def Probe.verdict (p : Probe) (h : Host) : Except Fault Unit :=
  match p.command.outcome h with
  | .ok e => if e.isSuccess then .ok () else .error (.pipeline p.absent)
  | .error f => .error (if f.isNotFound then .pipeline p.absent else f)

/-- Whether a step reports it as its own failure that its main command took too long. -/
def reportsOverrun (s : Step) : Bool :=
  match s.work.task with
  | .lint _ => false
  | _ => true

/-- What a step makes of what came of its main command. -/
def verdict (s : Step) (j : Job) (c : Command) : Except Fault Ended → Except Fault Unit
  | .ok e => if e.isSuccess then .ok () else .error (s.failure j c.program.text e)
  | .error f => .error (if s.reportsOverrun && f.isTimeout then s.overrun j c.program.text else f)

/-- What comes of a main command, if there is one, and how it leaves the host. -/
def mainEnd (s : Step) (j : Job) (h : Host) : Except Fault Command → Except Fault Unit × Host
  | .error f => (.error f, h)
  | .ok c => (s.verdict j c (c.outcome h), c.left h)

/-- The same after finding out whether a program is there. -/
def probedEnd (s : Step) (j : Job) (h : Host) (p : Probe) (main : Except Fault Command) : Except Fault Unit × Host :=
  match p.verdict h with
  | .error f => (.error f, p.command.left h)
  | .ok () => s.mainEnd j (p.command.left h) main

/-- What a course that begins on a host ends in, and how it leaves the host. -/
def Course.end (s : Step) (j : Job) (h : Host) : Course → Except Fault Unit × Host
  | .refused f => (.error f, h)
  | .idle message => (.ok (), Act.noting h [.out (h.display.shown (Level.info.line message))])
  | .working none main => s.mainEnd j h main
  | .working (some p) main => s.probedEnd j h p main

/-! ## Steps keep to their course -/

variable (s : Step) (j : Job) (root : Path) (h : Host)

theorem on_directory : (s.directory j root).on h = (s.directoryAt j root h, h) := by
  rw [directory, directoryAt, Act.on_bind_ok (Act.on_get h), Act.on_bind, Act.on_ofExcept]
  cases h.resolve (root.child ((s.cwd.filter (· ≠ "")).getD ".")) with
  | error f => rfl
  | ok path =>
    show (if h.has path then pure path else Act.fail (.noStepDirectory j.name s.name path.text) : Act Path).on h =
      ((if h.has path then .ok path else .error (.noStepDirectory j.name s.name path.text) : Except Fault Path), h)
    split <;> rfl

theorem directoryAt_eq_ok {s : Step} {j : Job} {root : Path} {h : Host} {p : Path}
    (hp : s.directoryAt j root h = .ok p) :
    p = h.here.resolve (root.child ((s.cwd.filter (· ≠ "")).getD ".")) := by
  obtain ⟨q, hq, hp⟩ := exists_of_bind_eq_ok hp
  unfold Host.resolve at hq
  split at hq
  · cases hq
  · split at hp <;> cases hp
    cases hq
    rfl

theorem on_probe (p : Probe) :
    ((discard p.command.demand).recover (fun f => f.isCommandFailed || f.isNotFound) fun _ =>
      .fail (.pipeline p.absent)).on h = (p.verdict h, p.command.left h) := by
  have hdemand := Act.on_discard p.command.demand h
  rw [Command.on_demand] at hdemand
  unfold Probe.verdict
  cases houtcome : p.command.outcome h with
  | ok e =>
    rw [houtcome] at hdemand
    cases hsuccess : e.isSuccess with
    | true =>
      have hok : (discard p.command.demand).on h = (.ok (), p.command.left h) := by
        simpa [hsuccess, bind, Except.bind, Except.map] using hdemand
      refine (Act.on_recover_ok hok _ _).trans ?_
      simp [hsuccess]
    | false =>
      have herror : (discard p.command.demand).on h =
          (.error (.commandFailed p.command.program e.code), p.command.left h) := by
        simpa [hsuccess, bind, Except.bind, Except.map] using hdemand
      refine (Act.on_recover_error herror _ _).trans ?_
      simp [hsuccess, Fault.isCommandFailed, Fault.faultClass]
  | error f =>
    rw [houtcome] at hdemand
    have herror : (discard p.command.demand).on h = (.error f, p.command.left h) := hdemand
    rw [Act.on_recover_error herror, Command.isCommandFailed_of_outcome houtcome, Bool.false_or]
    cases hfound : f.isNotFound <;> simp [hfound]

theorem on_carryOut (hreports : s.reportsOverrun = true) (c : Command) :
    (s.carryOut j c).on h = (s.verdict j c (c.outcome h), c.left h) := by
  have hstart := Command.on_start c h
  unfold carryOut verdict
  cases houtcome : c.outcome h with
  | ok e =>
    rw [houtcome] at hstart
    rw [Act.on_bind_ok (Act.on_recover_ok hstart _ _)]
    cases hsuccess : e.isSuccess <;> simp [hsuccess]
  | error f =>
    rw [houtcome] at hstart
    refine (Act.on_bind_error ?_).trans rfl
    rw [Act.on_recover_error hstart, hreports, Bool.true_and]
    cases f.isTimeout <;> rfl

theorem located_of_not_isPipeline {f : Fault} (hf : f.faultClass.isPipeline = false) : s.located j f = f := by
  cases f with
  | pipeline e =>
    rw [Fault.faultClass] at hf
    cases hsort : e.sort <;> rw [hsort] at hf <;> cases hf
  | _ => rfl

/-- Naming the job and the step changes nothing about other faults than the pipeline's own. -/
theorem on_located {α : Type} (x : Act α) :
    (x.recover (fun f => f.faultClass.isPipeline) fun f => .fail (s.located j f)).on h =
      ((x.on h).1.mapError (s.located j), (x.on h).2) := by
  rcases hon : x.on h with ⟨f | a, k⟩
  · rw [Act.on_recover_error hon]
    cases hpipeline : f.faultClass.isPipeline with
    | true => rfl
    | false =>
      show (Except.error f, k) = (.error (s.located j f), k)
      rw [located_of_not_isPipeline s j hpipeline]
  · exact Act.on_recover_ok hon _ _

theorem located_of_outcome {c : Command} {f : Fault} (hf : c.outcome h = .error f) : s.located j f = f :=
  located_of_not_isPipeline s j (Command.isPipeline_of_outcome hf)

theorem probedEnd_error {p : Probe} {f : Fault} (hp : p.verdict h = .error f) (main : Except Fault Command) :
    s.probedEnd j h p main = (.error f, p.command.left h) := by
  rw [probedEnd, hp]

theorem probedEnd_ok {p : Probe} (hp : p.verdict h = .ok ()) (main : Except Fault Command) :
    s.probedEnd j h p main = s.mainEnd j (p.command.left h) main := by
  rw [probedEnd, hp]

theorem verdict_linterProbe (tool : Value) : (s.linterProbe j tool).verdict h =
    (Probe.verdict ⟨(s.linterProbe j tool).command, Linter.unavailable tool.plain⟩ h).mapError (s.located j) := by
  unfold Probe.verdict
  cases houtcome : (s.linterProbe j tool).command.outcome h with
  | ok e => cases hsuccess : e.isSuccess <;> simp only [hsuccess] <;> rfl
  | error f =>
    have hother := located_of_outcome s j h houtcome
    cases hfound : f.isNotFound with
    | true =>
      simp only [hfound]
      rfl
    | false =>
      simp only [hfound]
      exact congrArg Except.error hother.symm

/-- A linter that is asked for and then run, with what is made of its end. -/
def runLinter (t : LintTask) (path : Path) (env : Dict Value) : Act Unit := do
  let e ← (Linter.run t path.text env).recover (fun f => f.faultClass.isPipeline) fun f => .fail (s.located j f)
  unless e.isSuccess do
    let argv ← Act.ofExcept .data t.command
    .fail (s.failure j (Program.ofValues argv).text e)

theorem on_runLinter (t : LintTask) (path : Path) (hlint : s.reportsOverrun = false) :
    (s.runLinter j t path (jobEnv j h)).on h =
      s.probedEnd j h (s.linterProbe j t.tool) ((t.command.mapError .data).map (lintCommand j h path)) := by
  have hprobe := on_probe h ⟨(s.linterProbe j t.tool).command, Linter.unavailable t.tool.plain⟩
  have hverdict := verdict_linterProbe s j h t.tool
  have hlocated := on_located s j h (Linter.run t path.text (jobEnv j h))
  rw [runLinter]
  rcases hp : Probe.verdict ⟨(s.linterProbe j t.tool).command, Linter.unavailable t.tool.plain⟩ h with f | ⟨⟩
  · rw [hp] at hprobe hverdict
    have hrun : (Linter.run t path.text (jobEnv j h)).on h = (.error f, (s.linterProbe j t.tool).command.left h) :=
      Act.on_bind_error hprobe
    rw [hrun] at hlocated
    rw [probedEnd_error s j h hverdict]
    exact Act.on_bind_error hlocated
  · rw [hp] at hprobe hverdict
    rw [probedEnd_ok s j h hverdict]
    generalize hk : (s.linterProbe j t.tool).command.left h = k at hprobe ⊢
    have hrun : (Linter.run t path.text (jobEnv j h)).on h = Act.on (do
        let argv ← Act.ofExcept .data t.command
        (lintCommand j h path argv).start) k := Act.on_bind_ok hprobe
    cases hcommand : t.command with
    | error e =>
      rw [hcommand] at hrun
      rw [hrun] at hlocated
      exact Act.on_bind_error hlocated
    | ok argv =>
      rw [hcommand] at hrun
      have hstart := hrun.trans (Command.on_start (lintCommand j h path argv) k)
      rw [hstart] at hlocated
      show _ = (s.verdict j _ ((lintCommand j h path argv).outcome k), (lintCommand j h path argv).left k)
      cases houtcome : (lintCommand j h path argv).outcome k with
      | error f =>
        rw [houtcome] at hlocated
        refine (Act.on_bind_error hlocated).trans ?_
        rw [located_of_outcome s j k houtcome, verdict, hlint]
        rfl
      | ok e =>
        rw [houtcome] at hlocated
        refine (Act.on_bind_ok hlocated).trans ?_
        rw [verdict]
        cases hsuccess : e.isSuccess <;> rfl

theorem on_runDocker (hreports : s.reportsOverrun = true) (argv : List Value) :
    (s.runDocker j root argv).on h = s.mainEnd j h (.ok (s.dockerCommand h root argv)) :=
  on_carryOut s j h hreports (s.dockerCommand h root argv)

theorem on_containerWords (r : ContainerRun Value) :
    (s.containerWords j root r).on h = (s.containerArgv j root h r, h) := by
  rw [containerWords, Act.on_bind_ok (Act.on_get h), containerArgv]
  cases r.mountRepo with
  | true =>
    simp only [if_true]
    rw [Act.on_bind, Act.on_ofExcept]
    cases h.resolve root <;> rfl
  | false => rfl

/-- What the main command of a container run is made from is as it was before the service was asked for. -/
theorem containerMain_left (c : Command) (r : Except DataError (ContainerRun Value)) :
    s.containerMain j root (c.left h) r = s.containerMain j root h r := by
  rw [Command.left_eq]
  rfl

/-- What follows the probe of the container service is done on the host that this has left. -/
theorem on_checkDocker_then {act : Act Unit} {main : Except Fault Command}
    (hact : act.on (dockerProbe.command.left h) = s.mainEnd j (dockerProbe.command.left h) main) :
    (checkDocker >>= fun _ => act).on h = s.probedEnd j h dockerProbe main := by
  have hprobe := on_probe h dockerProbe
  rcases hp : dockerProbe.verdict h with f | ⟨⟩
  · rw [hp] at hprobe
    rw [probedEnd_error s j h hp]
    exact Act.on_bind_error hprobe
  · rw [hp] at hprobe
    rw [probedEnd_ok s j h hp]
    exact (Act.on_bind_ok hprobe).trans hact

theorem on_runContainer (hreports : s.reportsOverrun = true) (r : Except DataError (ContainerRun Value)) :
    (s.runContainer j root r).on h = s.probedEnd j h dockerProbe (s.containerMain j root h r) := by
  rw [← containerMain_left s j root h dockerProbe.command r]
  refine on_checkDocker_then s j h ?_
  generalize dockerProbe.command.left h = k
  cases r with
  | error e => rfl
  | ok r =>
    have hwords := on_containerWords s j root k r
    show (s.containerWords j root r >>= s.runDocker j root).on k = _
    rw [containerMain]
    show _ = s.mainEnd j k ((s.containerArgv j root k r).map (s.dockerCommand k root))
    cases hargv : s.containerArgv j root k r with
    | error f =>
      rw [hargv] at hwords
      exact Act.on_bind_error hwords
    | ok argv =>
      rw [hargv] at hwords
      exact (Act.on_bind_ok hwords).trans (on_runDocker s j root k hreports argv)

theorem dockerCommand_left (c : Command) : s.dockerCommand (c.left h) = s.dockerCommand h := by
  rw [Command.left_eq]
  rfl

theorem on_runImage (hreports : s.reportsOverrun = true) (b : Except DataError (ImageBuild Value)) :
    (s.runImage j root b).on h =
      s.probedEnd j h dockerProbe ((b.mapError .data).map fun b => s.dockerCommand h root b.command) := by
  rw [← dockerCommand_left s h dockerProbe.command]
  refine on_checkDocker_then s j h ?_
  generalize dockerProbe.command.left h = k
  cases b with
  | error e => rfl
  | ok b => exact on_runDocker s j root k hreports b.command

theorem on_runLint (t : LintTask) (hreports : s.reportsOverrun = false) :
    (s.runLint j root t).on h =
      (if !t.tool.isGiven then Course.refused (.noLinter j.name s.name)
      else
        match s.directoryAt j root h with
        | .error f => .refused f
        | .ok path => s.lintCourse j h t path).end s j h := by
  have hdirectory := on_directory s j root h
  rw [runLint]
  cases hgiven : t.tool.isGiven with
  | false => rfl
  | true =>
    simp only [Bool.not_true, Bool.false_eq_true, if_false]
    cases hd : s.directoryAt j root h with
    | error f =>
      rw [hd] at hdirectory
      exact Act.on_bind_error hdirectory
    | ok path =>
      rw [hd] at hdirectory
      refine (Act.on_bind_ok hdirectory).trans ((Act.on_bind_ok (Act.on_get h)).trans ?_)
      rw [Act.on_bind, Act.on_ofExcept]
      show _ = (s.lintCourse j h t path).end s j h
      unfold lintCourse
      cases t.guard with
      | error e => rfl
      | ok guard =>
        show Act.on (match guard.filter fun guard => !h.has (path.child guard) with
          | some guard => Console.info ("[" ++ j.name ++ "] " ++ s.name ++ ": no " ++ guard ++ ", nothing to lint")
          | none => s.runLinter j t path (jobEnv j h)) h = _
        cases hmissing : guard.filter fun guard => !h.has (path.child guard) with
        | some guard =>
          simp only [hmissing]
          rfl
        | none =>
          simp only [hmissing]
          exact on_runLinter s j h t path hreports

/-- What comes of a step, and how it leaves the host, is what its course ends in. -/
theorem on_execute : (s.execute j root).on h = (s.course j root h).end s j h := by
  have hdirectory := on_directory s j root h
  unfold execute course
  cases htask : s.work.task with
  | shell =>
    have hreports : s.reportsOverrun = true := by rw [reportsOverrun, htask]
    cases hd : s.directoryAt j root h with
    | error f =>
      rw [hd] at hdirectory
      exact Act.on_bind_error hdirectory
    | ok path =>
      rw [hd] at hdirectory
      exact (Act.on_bind_ok hdirectory).trans (on_carryOut s j h hreports (s.shellCommand j h path))
  | container r => exact on_runContainer s j root h (by rw [reportsOverrun, htask]) r
  | image b => exact on_runImage s j root h (by rw [reportsOverrun, htask]) b
  | lint t => exact on_runLint s j root h t (by rw [reportsOverrun, htask])
  | unknown kind => rfl

/-! ## What a course leaves -/

variable {s j h}

theorem frame_mainEnd (main : Except Fault Command) : (s.mainEnd j h main).2.frame = h.frame := by
  cases main with
  | error f => rfl
  | ok c => exact Host.frame_left h c

theorem frame_end (c : Course) : (c.end s j h).2.frame = h.frame := by
  match c with
  | .refused f => rfl
  | .idle message => rfl
  | .working none main => exact frame_mainEnd main
  | .working (some p) main =>
    show (s.probedEnd j h p main).2.frame = h.frame
    rcases hp : p.verdict h with f | ⟨⟩
    · rw [probedEnd_error s j h hp]
      exact Host.frame_left h p.command
    · rw [probedEnd_ok s j h hp, frame_mainEnd]
      exact Host.frame_left h p.command

/-- A step changes nothing of a host but the files and what is recorded. -/
theorem frame_execute (s : Step) (j : Job) (root : Path) (h : Host) : ((s.execute j root).on h).2.frame = h.frame := by
  rw [on_execute, frame_end]

theorem mem_toOption_toList {main : Except Fault Command} {c : Command} :
    c ∈ main.toOption.toList ↔ main = .ok c := by
  cases main with
  | error f => simp [Except.toOption]
  | ok c' => simp [Except.toOption, eq_comm]

theorem started_mainEnd (main : Except Fault Command) :
    (s.mainEnd j h main).2.started = h.started ++ main.toOption.toList := by
  cases main with
  | error f => exact (List.append_nil _).symm
  | ok c => exact Command.started_left c h

theorem started_probedEnd (p : Probe) (main : Except Fault Command) : (s.probedEnd j h p main).2.started =
    h.started ++ p.command ::
      match p.verdict h with
      | .ok () => main.toOption.toList
      | .error _ => [] := by
  rcases hp : p.verdict h with f | ⟨⟩
  · rw [probedEnd_error s j h hp]
    exact Command.started_left _ h
  · rw [probedEnd_ok s j h hp, started_mainEnd, Command.started_left, List.append_assoc]
    rfl

end Step

namespace Sample

/-- A job whose steps are begun one at a time. -/
def checks : Job where
  name := "checks"
  steps := []

/-- A host with a directory of sources, where commands meet with the given replies. -/
def replying (respond : List Command → Command → Reply) : Host where
  here := ⟨1, []⟩
  files := ⟨[(["src"], .directory)]⟩
  clock := ⟨2024, 1, 1, 0, 0, 0⟩
  settings := ⟨"", "", "", "main", 60⟩
  respond := respond

end Sample

end CiPipeline
