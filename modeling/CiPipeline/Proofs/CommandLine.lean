import CiPipeline.CommandLine
import CiPipeline.Proofs.Command
import CiPipeline.Proofs.Run.Journal
import CiPipeline.Proofs.Trigger

/-
Running and planning a workflow that raises a fault. Before the workflow is loaded, its file and the trigger
are found, which begins no job and changes nothing of the display (`keeps_prepare`); loading itself leaves the
host as it is (`Workflow.on_load`). `raised_fault_reported`: what the two commands make of the fault. They differ
in the pipeline's own errors, which planning does not report, and in interruptions, by which it is aborted.
-/

namespace CiPipeline

/-! ## What is left alone before a workflow is loaded -/

/-- A part of a host that commands and messages leave as it is. -/
structure Host.Untouched {γ : Type} (part : Host → γ) : Prop where
  left : ∀ (c : Command) (h : Host), part (c.left h) = part h
  noting : ∀ (h : Host) (events : List Event), (∀ e ∈ events, Act.IsPrint e) → part (Act.noting h events) = part h

theorem Host.untouched_frame : Untouched Host.frame where
  left := fun c h => frame_left h c
  noting := fun h events _ => frame_noting h events

theorem Host.untouched_began : Untouched Host.began where
  left := fun c h => by
    rw [Command.left_eq, began, List.filterMap_append]
    exact List.append_nil _
  noting := fun h _ hprint => Act.began_noting h hprint

section

variable {γ : Type} {part : Host → γ} (hpart : Host.Untouched part)

include hpart

theorem Act.Prints.keeps {x : Act Unit} (hx : Prints x) : Keeps part x := by
  intro h
  obtain ⟨events, hprint, hon⟩ := hx h
  rw [hon]
  exact hpart.noting h events hprint

theorem Git.keeps_query (words : List String) (cwd : Option String) : (query words cwd).Keeps part := by
  have hstart : ∀ c : Command, c.start.Keeps part := fun c h => by
    rw [Command.on_start]
    exact hpart.left c h
  exact ((hstart _).bind fun _ => .ite (Act.keeps_pure _) (Act.keeps_fail _)).bind fun _ => Act.keeps_pure _

theorem Git.keeps_currentRef (cwd : Option String) : (currentRef cwd).Keeps part := by
  have htag : (exactTag cwd).Keeps part := (keeps_query hpart _ cwd).recover fun _ => Act.keeps_pure ""
  have hbranch : (branchRef cwd).Keeps part := (keeps_query hpart _ cwd).recover fun _ => keeps_query hpart _ cwd
  exact htag.bind fun _ => .ite (Act.keeps_pure _) hbranch

theorem Trigger.keeps_fromEnv (env : Dict String) (o : TriggerRequest) : (Trigger.fromEnv env o).Keeps part := by
  have hcheckout : (TriggerRequest.ofEnv env).fromCheckout.Keeps part := by
    refine (Git.keeps_currentRef hpart none).bind fun ref => ?_
    cases (TriggerRequest.ofEnv env).sha.filter Value.isGiven with
    | some sha => exact Act.keeps_pure _
    | none => exact ((Git.keeps_query hpart _ none).bind fun _ => Act.keeps_pure _).bind fun _ => Act.keeps_pure _
  refine Act.keeps_get_bind fun h => .ite ?_ (Act.keeps_ofExcept _ _)
  exact (hcheckout.recover fun _ => Act.keeps_pure _).bind fun _ => Act.keeps_ofExcept _ _

theorem Workflow.keeps_discover (name : Option String) : (discover name).Keeps part := by
  have hquit : ∀ {title message : String} {details : List String} {suggestion : String}, (do
      Console.error title message details suggestion
      quit 1 : Act Path).Keeps part := fun {_ _ _ _} =>
    ((Act.prints_error _ _ _ _).keeps hpart).bind fun _ => Act.keeps_fail _
  unfold discover
  cases name.filter (· ≠ "") with
  | some name => exact Act.keeps_get_bind fun h => .ite (Act.keeps_pure _) hquit
  | none =>
    refine Act.keeps_get_bind fun h => .ite (Act.keeps_pure _) ?_
    match found h with
    | [] => exact hquit
    | [name] => exact Act.keeps_pure _
    | first :: second :: more => exact hquit

end

/-! ## Loading -/

namespace Workflow

theorem on_discover_default {h : Host} (hthere : h.has (Path.parse defaultName) = true) :
    (discover none).on h = (.ok (Path.parse defaultName), h) := by
  rw [discover]
  refine (Act.on_bind_ok (Act.on_get h)).trans ?_
  rw [if_pos hthere]
  rfl

/-- What a workflow file comes to for a trigger. -/
def made (h : Host) (file : Path) (t : Trigger) : Except Fault (List Job) := do
  let d ← (fileAt h file).load h.settings h.env
  match ← d.given (some t) with
  | some jobs => return jobs
  | none => .error .notJobs

/-- What loading a path for a trigger comes to on a host. -/
def loading (h : Host) (path : String) (t : Trigger) : Except Fault (List Job) := do
  let place ← h.expand path
  if !h.has place then .error (.noWorkflow place.text)
  else if place.suffix ≠ ".py" then .error (.notWorkflowName place.name)
  else
    match loaded? h place with
    | some file => made h file t
    | none => .error (.workflowIsDirectory place.text)

theorem on_load (path : String) (t : Trigger) (h : Host) : (load path (some t)).on h = (loading h path t, h) := by
  have hjobs : ∀ d : Definitions, (jobsOf d (some t)).on h = (d.given (some t), h) := fun d =>
    Act.on_ofExcept_id _ _
  rw [load, Act.on_bind_ok (Act.on_get h), loading]
  refine Act.on_bind_same (Act.on_ofExcept_id _ _) fun place => ?_
  cases hthere : h.has place with
  | false => rfl
  | true =>
    by_cases hsuffix : place.suffix = ".py"
    · simp only [hsuffix, ne_eq, not_true_eq_false, Bool.not_true, Bool.false_eq_true, if_false]
      cases loaded? h place with
      | none => rfl
      | some file =>
        refine Act.on_bind_same (Act.on_ofExcept_id _ _) fun d => Act.on_bind_same (hjobs d) fun jobs => ?_
        cases jobs <;> rfl
    · simp only [hsuffix, ne_eq, not_false_eq_true, Bool.not_true, Bool.false_eq_true, if_false, if_true]
      rfl

end Workflow

namespace CommandLine

/-- Finds the workflow file and the trigger. -/
def prepare (workflow : Option String) (w : TriggerWords) : Act (Path × Trigger) := do
  let file ← Workflow.discover workflow
  let t ← trigger w
  return (file, t)

theorem prepare_bind {α : Type} (workflow : Option String) (w : TriggerWords) (next : Path × Trigger → Act α) :
    prepare workflow w >>= next = Workflow.discover workflow >>= fun file => trigger w >>= fun t => next (file, t) := by
  simp only [prepare, bind_assoc, pure_bind]

theorem keeps_prepare {γ : Type} {part : Host → γ} (hpart : Host.Untouched part) (workflow : Option String)
    (w : TriggerWords) : (prepare workflow w).Keeps part := by
  have htrigger : (trigger w).Keeps part := by
    refine Act.keeps_get_bind fun h => (Trigger.keeps_fromEnv hpart _ _).attempt.bind fun r => ?_
    split
    · exact Act.keeps_pure _
    · exact ((Act.prints_error _ _ _ _).keeps hpart).bind fun _ => Act.keeps_fail _
    · exact Act.keeps_fail _
  exact (Workflow.keeps_discover hpart workflow).bind fun _ => htrigger.bind fun _ => Act.keeps_pure _

variable {h k : Host} {file : Path} {t : Trigger} {f : Fault}

/-- The line about a fault. -/
def faultLine (k : Host) (f : Fault) : Event := .err (k.display.shown (Level.error.line f.message))

theorem on_trigger {w : TriggerWords} (hfrom : (Trigger.fromEnv h.env w.request).on h = (.ok t, k)) :
    (CommandLine.trigger w).on h = (.ok t, k) := by
  rw [CommandLine.trigger, Act.on_bind_ok (Act.on_get h), Act.on_bind_ok (Act.on_attempt _ _), hfrom]
  rfl

theorem on_reported (hdebug : k.display.debug = false) (f : Fault) :
    (reported f).on k = (.ok (.exit (.number 1)), Act.noting k [faultLine k f]) := by
  have hfault : (Console.fault f).on k = (.ok (), Act.noting k [faultLine k f]) := by
    rw [Console.fault, Act.on_bind_ok (Act.on_get k), hdebug]
    rfl
  exact Act.on_bind_ok hfault

theorem on_interrupted (k : Host) : interrupted.on k = (.ok (.exit (.number 130)),
    Act.noting k [.out (k.display.shown (Level.info.line "Interrupted by user"))]) := rfl

/-- What running comes to if its workflow ended with a fault or without one, with failed jobs or without any. -/
def runEnd : Except Fault Bool → Act CommandEnd
  | .ok failed => leave (if failed then 1 else 0)
  | .error f =>
    if f.faultClass == .interrupt then interrupted
    else if isReported f || f.faultClass.isPipeline then reported f
    else .fail f

/-- What planning comes to if its workflow ended with a fault or without one. -/
def planEnd : Except Fault Unit → Act CommandEnd
  | .ok () => leave 0
  | .error f => if isReported f then reported f else .fail f

theorem run_eq (w : RunWords) : run w = prepare w.workflow w.trigger >>= fun p =>
    (runWorkflow w p.1 p.2).attempt >>= runEnd := by
  rw [prepare_bind]
  rfl

theorem plan_eq {w : PlanWords} {assumed : Plan.Assumptions} (hassumed : Assume.parse w.assumed = .ok assumed) :
    plan w = prepare w.workflow w.trigger >>= fun p => (planWorkflow w p.1 p.2 assumed).attempt >>= planEnd := by
  rw [prepare_bind, plan]
  generalize Assume.parse w.assumed = r at hassumed ⊢
  subst hassumed
  rfl

/-- Running ends with what is made of the fault that its workflow raises. -/
theorem on_run_raising {w : RunWords} (hprepare : (prepare w.workflow w.trigger).on h = (.ok (file, t), k))
    (hraise : Workflow.loading k file.text t = .error f) : (run w).on h = (runEnd (.error f)).on k := by
  have hload := Workflow.on_load file.text t k
  rw [hraise] at hload
  have hworkflow : (runWorkflow w file t).on k = (.error f, k) := Act.on_bind_error hload
  rw [run_eq, Act.on_bind_ok hprepare, Act.on_bind_ok (Act.on_attempt _ _), hworkflow]

/-- Planning ends with what is made of the fault that its workflow raises. -/
theorem on_plan_raising {w : PlanWords} {assumed : Plan.Assumptions} (hassumed : Assume.parse w.assumed = .ok assumed)
    (hprepare : (prepare w.workflow w.trigger).on h = (.ok (file, t), k))
    (hraise : Workflow.loading k file.text t = .error f) : (plan w).on h = (planEnd (.error f)).on k := by
  have hload := Workflow.on_load file.text t k
  rw [hraise] at hload
  have hworkflow : (planWorkflow w file t assumed).on k = (.error f, k) := Act.on_bind_error hload
  rw [plan_eq hassumed, Act.on_bind_ok hprepare, Act.on_bind_ok (Act.on_attempt _ _), hworkflow]

/-! ## Whole command lines -/

/-- The host with messages as they appear without options. -/
def plainly (h : Host) : Host := { h with display := {} }

/-- The words of a command can be read, and do not ask for its help page. -/
def Reads {α : Type} (names : OptionNames) (read : Parsed → Except UsageError α) (words : List String) (a : α) : Prop :=
  ∃ p, Options.parse { names with flags := help :: names.flags } words = .ok p ∧ p.isSet help = false ∧ read p = .ok a

theorem reading_eq {α : Type} {names : OptionNames} {read : Parsed → Except UsageError α} {words : List String} {a : α}
    (hreads : Reads names read words a) (page : String) (body : α → Act CommandEnd) :
    reading page names read words body = body a := by
  obtain ⟨p, hparse, hhelp, hread⟩ := hreads
  rw [reading, hparse]
  simp only [hhelp, hread, Bool.false_eq_true, if_false]

/-- A word that names a command selects it. -/
theorem on_carryOut {word : String} {name : Name} (hword : word ≠ "--" ∧ Options.isOption word = false)
    (hname : Name.ofWord? word = some name) (words : List String) (h : Host) :
    (carryOut (word :: words) .pipeline).on h =
      (perform (Executable.pipeline.name ++ " " ++ word) words name).on (plainly h) := by
  have hreads : Reads groupNames .ok (word :: words) { words := word :: words } := by
    refine ⟨_, ?_, rfl, rfl⟩
    rw [Options.parse, if_neg hword.1, hword.2]
    rfl
  have hcarry : carryOut (word :: words) .pipeline = select { words := word :: words } := reading_eq hreads _ _
  rw [hcarry, select]
  simp only [hname]
  rfl

theorem on_execute {e : Executable} {words : List String} {r : CommandEnd}
    (hon : (carryOut words e).on h = (.ok r, k)) : (execute e words).on h = (.ok r, k) := by
  rw [execute, Act.on_bind_ok (Act.on_attempt _ _), hon]
  rfl

theorem not_interrupt_of_isOrdinary (hordinary : f.isOrdinary = true) : (f.faultClass == .interrupt) = false := by
  rw [Fault.isOrdinary] at hordinary
  cases hf : f.faultClass <;> rw [hf] at hordinary <;> first | rfl | cases hordinary

/-- A fault that no command has dealt with stays as it is, unless it is an interruption or a request to stop. -/
theorem on_execute_ordinary {e : Executable} {words : List String} (hon : (carryOut words e).on h = (.error f, k))
    (hordinary : f.isOrdinary = true) : (execute e words).on h = (.error f, k) := by
  rw [execute, Act.on_bind_ok (Act.on_attempt _ _), hon]
  have hclass := not_interrupt_of_isOrdinary hordinary
  cases f with
  | exit code => cases hordinary
  | _ => exact congrArg (fun x : Act CommandEnd => x.on k) (if_neg (by rw [hclass]; exact Bool.false_ne_true))

theorem on_execute_interruption {e : Executable} {words : List String} (hon : (carryOut words e).on h = (.error f, k))
    (hinterrupt : f.faultClass = .interrupt) :
    (execute e words).on h = (.error .aborted, Act.noting k [.err (k.display.shown "")]) := by
  rw [execute, Act.on_bind_ok (Act.on_attempt _ _), hon]
  have hclass : (f.faultClass == .interrupt) = true := by rw [hinterrupt]; rfl
  cases f with
  | exit code => cases hinterrupt
  | _ => exact congrArg (fun x : Act CommandEnd => x.on k) (if_pos hclass)

/-! ## Running and planning a workflow that raises a fault -/

/-- Command lines for running and for planning that can be read, and that name one workflow file and one trigger,
which are found on a host. -/
structure Paired (h : Host) (words words' : List String) where
  running : RunWords
  planning : PlanWords
  assumed : Plan.Assumptions
  file : Path
  trigger : Trigger
  ready : Host
  reads_running : Reads runNames RunWords.read words running
  reads_planning : Reads planNames PlanWords.read words' planning
  reads_assumed : Assume.parse planning.assumed = .ok assumed
  same_workflow : planning.workflow = running.workflow
  same_trigger : planning.trigger = running.trigger
  prepared : (prepare running.workflow running.trigger).on (plainly h) = (.ok (file, trigger), ready)

namespace Paired

variable {words words' : List String} (c : Paired h words words')

/-- The fault that the workflow raises, or its jobs. -/
def loading : Except Fault (List Job) := Workflow.loading c.ready c.file.text c.trigger

theorem on_carryOut_run (hraise : c.loading = .error f) : (carryOut ("run" :: words) .pipeline).on h = Act.on (
    if f.faultClass == .interrupt then interrupted
    else if isReported f || f.faultClass.isPipeline then reported f
    else .fail f) c.ready := by
  rw [on_carryOut (by decide +kernel) rfl, perform, reading_eq c.reads_running]
  exact on_run_raising c.prepared hraise

theorem on_carryOut_plan (hraise : c.loading = .error f) : (carryOut ("plan" :: words') .pipeline).on h = Act.on (
    if isReported f then reported f else .fail f) c.ready := by
  have hprepared := c.prepared
  rw [← c.same_workflow, ← c.same_trigger] at hprepared
  rw [on_carryOut (by decide +kernel) rfl, perform, reading_eq c.reads_planning]
  exact on_plan_raising c.reads_assumed hprepared hraise

theorem frame_ready : c.ready.frame = (plainly h).frame := by
  have hframe := keeps_prepare Host.untouched_frame c.running.workflow c.running.trigger (plainly h)
  rw [c.prepared] at hframe
  exact hframe

theorem began_ready : c.ready.began = h.began := by
  have hbegan := keeps_prepare Host.untouched_began c.running.workflow c.running.trigger (plainly h)
  rw [c.prepared] at hbegan
  exact hbegan

end Paired

theorem keeps_reported (f : Fault) : (reported f).Keeps Host.began := by
  have hfault : (Console.fault f).Prints :=
    Act.prints_get_bind fun _ => .ite (Act.prints_record trivial) (Act.prints_aside _)
  exact (hfault.keeps Host.untouched_began).bind fun _ => Act.keeps_pure _

theorem keeps_interrupted : interrupted.Keeps Host.began :=
  ((Act.prints_info _).keeps Host.untouched_began).bind fun _ => Act.keeps_pure _

/-- What is done at the end of a command line begins no job. -/
theorem began_execute (e : Executable) (words : List String) (h : Host) :
    ((execute e words).on h).2.began = ((carryOut words e).on h).2.began := by
  rw [execute, Act.on_bind_ok (Act.on_attempt _ _)]
  refine (?_ : Act.Keeps Host.began _) _
  split
  · exact Act.keeps_pure _
  · exact Act.keeps_pure _
  · exact .ite (((Act.prints_aside _).keeps Host.untouched_began).bind fun _ => Act.keeps_fail _) (Act.keeps_fail _)

/-- How a command ends whose workflow raises a fault, if that is reported, or if it is not. -/
def ending (isHandled : Bool) (f : Fault) (k : Host) : Except Fault CommandEnd × Host :=
  if isHandled then (.ok (.exit (.number 1)), Act.noting k [faultLine k f]) else (.error f, k)

theorem on_execute_of_reported {words : List String} {isHandled : Bool} (hdebug : k.display.debug = false)
    (hon : (carryOut words .pipeline).on h = Act.on (if isHandled then reported f else .fail f) k)
    (hordinary : f.isOrdinary = true) : (execute .pipeline words).on h = ending isHandled f k := by
  cases isHandled with
  | true => exact on_execute (hon.trans (on_reported hdebug f))
  | false => exact on_execute_ordinary hon hordinary

/-- What both commands report is none of the pipeline's own errors, so that these make all the difference. -/
theorem ending_eq_iff (f : Fault) (k : Host) :
    ending (isReported f || f.faultClass.isPipeline) f k = ending (isReported f) f k ↔
      f.faultClass.isPipeline = false := by
  have hother : f.faultClass.isPipeline = true → isReported f = false := by
    intro hpipeline
    rw [isReported, Fault.isOs]
    cases hclass : f.faultClass <;> rw [hclass] at hpipeline <;> first | rfl | cases hpipeline
  cases hpipeline : f.faultClass.isPipeline with
  | false => exact iff_of_true (by rw [Bool.or_false]) rfl
  | true =>
    rw [hother hpipeline]
    exact iff_of_false (fun heq => by cases congrArg Prod.fst heq) Bool.noConfusion

variable {words words' : List String}

/-- Neither command begins a job if the workflow raises a fault. Running reports errors of the system, unacceptable
values and the pipeline's own errors, and ends with 1; planning does not report the last of these, and that is the
only difference between the two, as other faults are reported by neither. An interruption ends running with 130,
and it aborts planning. -/
theorem raised_fault_reported (c : Paired h words words') (hraise : c.loading = .error f) :
    ((execute .pipeline ("run" :: words)).on h).2.began = h.began ∧
    ((execute .pipeline ("plan" :: words')).on h).2.began = h.began ∧
    (f.isOrdinary = true →
      (execute .pipeline ("run" :: words)).on h = ending (isReported f || f.faultClass.isPipeline) f c.ready ∧
      (execute .pipeline ("plan" :: words')).on h = ending (isReported f) f c.ready ∧
      ((execute .pipeline ("run" :: words)).on h = (execute .pipeline ("plan" :: words')).on h ↔
        f.faultClass.isPipeline = false)) ∧
    (f.faultClass = .interrupt →
      (execute .pipeline ("run" :: words)).on h = (.ok (.exit (.number 130)), Act.noting c.ready
        [.out (c.ready.display.shown (Level.info.line "Interrupted by user"))]) ∧
      (execute .pipeline ("plan" :: words')).on h = (.error .aborted, Act.noting c.ready
        [.err (c.ready.display.shown "")])) := by
  have hrun := c.on_carryOut_run hraise
  have hplan := c.on_carryOut_plan hraise
  have hdebug : c.ready.display.debug = false := by
    rw [Host.display_of_frame c.frame_ready]
    rfl
  refine ⟨?_, ?_, fun hordinary => ?_, fun hinterrupt => ⟨?_, ?_⟩⟩
  · rw [began_execute, hrun, ← c.began_ready]
    exact Act.Keeps.ite keeps_interrupted (.ite (keeps_reported f) (Act.keeps_fail f)) c.ready
  · rw [began_execute, hplan, ← c.began_ready]
    exact Act.Keeps.ite (keeps_reported f) (Act.keeps_fail f) c.ready
  · rw [not_interrupt_of_isOrdinary hordinary] at hrun
    have hrun := on_execute_of_reported hdebug hrun hordinary
    have hplan := on_execute_of_reported hdebug hplan hordinary
    refine ⟨hrun, hplan, ?_⟩
    rw [hrun, hplan]
    exact ending_eq_iff f c.ready
  · have hclass : (f.faultClass == .interrupt) = true := by rw [hinterrupt]; rfl
    rw [hclass] at hrun
    exact on_execute (hrun.trans (on_interrupted c.ready))
  · have hunreported : isReported f = false := by
      rw [isReported, Fault.isOs, hinterrupt]
      rfl
    rw [hunreported] at hplan
    exact on_execute_interruption hplan hinterrupt

end CommandLine

namespace Sample

/-- A host with a workflow file that makes nothing of a trigger but a fault. -/
def faulty (f : Fault) : Host where
  here := ⟨1, []⟩
  files := ⟨[(["mlcpipe_workflow.py"], .file "")]⟩
  clock := ⟨2024, 1, 1, 0, 0, 0⟩
  settings := ⟨"", "", "", "main", 60⟩
  meaning := fun _ => ⟨fun _ _ => .ok (.triggered fun _ => .error f)⟩

/-- The words that name a ref. -/
def onMain : List String := ["--ref", "refs/heads/main"]

/-- What they say about the trigger. -/
def mainWords : CommandLine.TriggerWords := ⟨some "refs/heads/main", none, none, false⟩

theorem prepared_faulty (f : Fault) : (CommandLine.prepare none mainWords).on (CommandLine.plainly (faulty f)) =
    (.ok (Path.parse Workflow.defaultName, trigger), CommandLine.plainly (faulty f)) := by
  -- which fault the file raises makes no difference to where it is
  have hthere : (CommandLine.plainly (faulty f)).has (Path.parse Workflow.defaultName) = true :=
    (by decide +kernel : (faulty .interrupted).has (Path.parse Workflow.defaultName) = true)
  have hmade : ((TriggerRequest.ofEnv {}).overriddenBy mainWords.request).trigger "main" = .ok trigger := rfl
  have hfrom : (Trigger.fromEnv {} mainWords.request).on (CommandLine.plainly (faulty f)) =
      (.ok trigger, CommandLine.plainly (faulty f)) := by
    rw [Trigger.on_fromEnv_unasked (by decide +kernel)]
    exact congrArg (fun x => (Except.mapError Fault.trigger x, CommandLine.plainly (faulty f))) hmade
  exact (Act.on_bind_ok (Workflow.on_discover_default hthere)).trans (Act.on_bind_ok (CommandLine.on_trigger hfrom))

/-- Running and planning on the main branch with the default workflow file. -/
def paired (f : Fault) : CommandLine.Paired (faulty f) onMain onMain where
  running := ⟨none, mainWords, none, false, true⟩
  planning := ⟨none, mainWords, [], none⟩
  assumed := {}
  file := Path.parse Workflow.defaultName
  trigger := trigger
  ready := CommandLine.plainly (faulty f)
  reads_running := ⟨{ options := [("--ref", "refs/heads/main")] }, by decide +kernel, by decide +kernel, rfl⟩
  reads_planning := ⟨{ options := [("--ref", "refs/heads/main")] }, by decide +kernel, by decide +kernel, rfl⟩
  reads_assumed := rfl
  same_workflow := rfl
  same_trigger := rfl
  prepared := prepared_faulty f

/-- An error of the pipeline's own. -/
def noDocker : PipelineError where
  kind := "tool_unavailable"
  message := "no docker"

end Sample

namespace CommandLine

/-- A value that is not acceptable is reported by both. -/
theorem raised_fault_reported_sample :
    (Sample.paired (.raised .value "ValueError" "bad")).loading = .error (.raised .value "ValueError" "bad") ∧
    ∃ k, (execute .pipeline ("run" :: Sample.onMain)).on (Sample.faulty (.raised .value "ValueError" "bad")) =
      (.ok (.exit (.number 1)), k) ∧
    (execute .pipeline ("plan" :: Sample.onMain)).on (Sample.faulty (.raised .value "ValueError" "bad")) =
      (.ok (.exit (.number 1)), k) ∧
    (k.journal.filterMap fun | .err t => some t | _ => none) = ["[ERROR] bad\n"] := by
  have hraise : (Sample.paired (.raised .value "ValueError" "bad")).loading =
      .error (.raised .value "ValueError" "bad") := rfl
  obtain ⟨-, -, hordinary, -⟩ := raised_fault_reported (Sample.paired (.raised .value "ValueError" "bad")) hraise
  obtain ⟨hrun, hplan, -⟩ := hordinary rfl
  exact ⟨hraise, _, hrun, hplan, by decide +kernel⟩

/-- The pipeline's own error: running reports it and ends with 1, and planning ends with the fault itself. -/
theorem pipeline_fault_escapes :
    (Sample.paired (.pipeline Sample.noDocker)).loading = .error (.pipeline Sample.noDocker) ∧
    (Fault.pipeline Sample.noDocker).isOrdinary = true ∧
    ((execute .pipeline ("run" :: Sample.onMain)).on (Sample.faulty (.pipeline Sample.noDocker))).1 =
      .ok (.exit (.number 1)) ∧
    ((execute .pipeline ("plan" :: Sample.onMain)).on (Sample.faulty (.pipeline Sample.noDocker))).1 =
      .error (.pipeline Sample.noDocker) :=
  ⟨rfl, rfl, rfl, rfl⟩

end CommandLine

end CiPipeline
