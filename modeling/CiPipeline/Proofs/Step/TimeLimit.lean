import CiPipeline.Proofs.Step.Course

/-
The time limits of steps. What a step starts is what it asks to find out whether its program is there, and
then one main command at most (`Asks`). `limit_honoured`: the main command of a shell line, a container run
or an image build is given the limit of the step, and if it takes longer, the step has failed with code 124.
A lint check gives its linter no limit at all, so that one which never ends is not stopped.
-/

namespace CiPipeline

namespace Step

variable (s : Step) (j : Job) (root : Path) {h : Host}

/-- What a step asks before its main command, to find out whether the program for that is there. -/
def questions : List Command :=
  match s.work.task with
  | .container _ | .image _ => [{ program := .words ["docker", "--version"] }]
  | .lint t => [{ program := .ofValues [t.tool, .text "--version"] }]
  | .shell | .unknown _ => []

/-- What a step has started: what it asks, or some of it, and then at most one main command. -/
structure Asks (asked mains : List Command) : Prop where
  asks : asked <+: s.questions
  single : mains.length ≤ 1
  answered : mains ≠ [] → asked = s.questions

/-- A command that was started behind others was answered and took too long. -/
def Overran (h : Host) (asked : List Command) (c : Command) (k : Host) : Prop :=
  k.answered = h.answered ++ asked ++ [c] ∧ h.respond (h.answered ++ asked) c = .overran

/-- A main command has the limit of its step, and the step reports it if it takes longer. -/
structure HonoursLimit (h : Host) (asked : List Command) (c : Command) (r : Except Fault Unit) (k : Host) : Prop where
  limit : c.timeout = s.timeout
  overrun : Overran h asked c k → ∃ f, r = .error (.step f) ∧ f.job = j.name ∧ f.step = s.name ∧ f.exitCode = 124

/-- A main command has no limit, and if it is stopped all the same, that is not reported as a failure of the step. -/
structure LacksLimit (h : Host) (asked : List Command) (c : Command) (r : Except Fault Unit) (k : Host) : Prop where
  limit : c.timeout = none
  overrun : Overran h asked c k → r = .error (.overran c.program none)

/-! ## The courses of the kinds -/

theorem reportsOverrun_eq : s.reportsOverrun = decide (s.work.kind ≠ "lint") := by
  unfold reportsOverrun
  cases s.work with
  | other kind data =>
    unfold Work.task Work.kind
    by_cases hshell : kind = "shell"
    · simp [hshell]
    by_cases hdocker : kind = "docker"
    · simp [hdocker]
    by_cases hbuild : kind = "docker-build"
    · simp [hbuild]
    by_cases hlint : kind = "lint"
    · simp [hlint]
    · simp [hshell, hdocker, hbuild, hlint]
  | _ => simp [Work.task, Work.kind]

theorem kind_of_task {t : LintTask} (htask : s.work.task = .lint t) : s.work.kind = "lint" := by
  have hreports := s.reportsOverrun_eq
  rw [reportsOverrun, htask] at hreports
  simpa using hreports

theorem course_idle {message : String} (hcourse : s.course j root h = .idle message) : s.work.kind = "lint" := by
  unfold course at hcourse
  cases htask : s.work.task with
  | shell =>
    rw [htask] at hcourse
    simp only at hcourse
    split at hcourse <;> cases hcourse
  | lint t => exact s.kind_of_task htask
  | container r => rw [htask] at hcourse; cases hcourse
  | image b => rw [htask] at hcourse; cases hcourse
  | unknown kind => rw [htask] at hcourse; cases hcourse

/-- The time limit of the main command. -/
def mainLimit : Option Number := if s.reportsOverrun then s.timeout else none

theorem course_working {probe : Option Probe} {main : Except Fault Command}
    (hcourse : s.course j root h = .working probe main) :
    probe.toList.map Probe.command = s.questions ∧ ∀ c, main = .ok c → c.timeout = s.mainLimit := by
  unfold course at hcourse
  unfold questions mainLimit reportsOverrun
  cases htask : s.work.task with
  | shell =>
    rw [htask] at hcourse
    simp only at hcourse
    split at hcourse <;> cases hcourse
    exact ⟨rfl, fun c hc => by cases hc; rfl⟩
  | container r =>
    rw [htask] at hcourse
    cases hcourse
    refine ⟨rfl, fun c hc => ?_⟩
    rw [containerMain] at hc
    cases hargv : r.mapError .data >>= s.containerArgv j root h with
    | error f => rw [hargv] at hc; cases hc
    | ok argv => rw [hargv] at hc; cases hc; rfl
  | image b =>
    rw [htask] at hcourse
    cases hcourse
    refine ⟨rfl, fun c hc => ?_⟩
    cases b with
    | error e => cases hc
    | ok b => cases hc; rfl
  | lint t =>
    rw [htask] at hcourse
    simp only at hcourse
    split at hcourse
    · cases hcourse
    split at hcourse
    · cases hcourse
    unfold lintCourse at hcourse
    split at hcourse
    · cases hcourse
    split at hcourse
    · cases hcourse
    cases hcourse
    refine ⟨rfl, fun c hc => ?_⟩
    cases hcommand : t.command with
    | error e => rw [hcommand] at hc; cases hc
    | ok argv => rw [hcommand] at hc; cases hc; rfl
  | unknown kind => rw [htask] at hcourse; cases hcourse

/-! ## The main command after what is asked -/

/-- The host when a step has asked, and was answered. -/
structure Answered (h : Host) (asked : List Command) (k : Host) : Prop where
  started : k.started = h.started ++ asked
  answered : k.answered = h.answered ++ asked
  respond : k.respond = h.respond

variable {s j} {k : Host} {asked : List Command} {c : Command}

theorem answered_nil (h : Host) : Answered h [] h := ⟨(List.append_nil _).symm, (List.append_nil _).symm, rfl⟩

theorem answered_probe {p : Probe} (hp : p.verdict h = .ok ()) : Answered h [p.command] (p.command.left h) := by
  refine ⟨Command.started_left _ _, ?_, Command.respond_left _ _⟩
  rw [Probe.verdict] at hp
  cases houtcome : p.command.outcome h with
  | ok e => exact Command.answered_left_of_ok houtcome
  | error f => rw [houtcome] at hp; cases hp

theorem Answered.outcome_of_overran (hasked : Answered h asked k) (hover : Overran h asked c (c.left k)) :
    c.outcome k = .error (.overran c.program c.timeout) := by
  obtain ⟨hanswered, hreply⟩ := hover
  apply Command.outcome_of_overran
  · rw [hanswered, hasked.answered]
  · rw [hasked.respond, hasked.answered, hreply]

theorem Answered.honoursLimit (hasked : Answered h asked k) (hkind : s.work.kind ≠ "lint")
    (hlimit : c.timeout = s.mainLimit) :
    HonoursLimit s j h asked c (s.mainEnd j k (.ok c)).1 (s.mainEnd j k (.ok c)).2 := by
  have hreports : s.reportsOverrun = true := by rw [reportsOverrun_eq, decide_eq_true hkind]
  refine ⟨by rw [hlimit, mainLimit, if_pos hreports], fun hover => ?_⟩
  have hend : s.verdict j c (c.outcome k) = .error (s.overrun j c.program.text) := by
    rw [hasked.outcome_of_overran hover, verdict, hreports]
    rfl
  exact ⟨_, hend, rfl, rfl, rfl⟩

theorem Answered.lacksLimit (hasked : Answered h asked k) (hkind : s.work.kind = "lint")
    (hlimit : c.timeout = s.mainLimit) :
    LacksLimit h asked c (s.mainEnd j k (.ok c)).1 (s.mainEnd j k (.ok c)).2 := by
  have hreports : s.reportsOverrun = false := by rw [reportsOverrun_eq, decide_eq_false (not_not_intro hkind)]
  have hnone : c.timeout = none := by rw [hlimit, mainLimit, if_neg (Bool.eq_false_iff.1 hreports)]
  refine ⟨hnone, fun hover => ?_⟩
  show s.verdict j c (c.outcome k) = _
  rw [hasked.outcome_of_overran hover, verdict, hreports, hnone]
  rfl

/-- What a step starts that ends with `r` and leaves the host as `k`, and what becomes of its time limit. -/
structure Timed (s : Step) (j : Job) (h : Host) (asked mains : List Command) (r : Except Fault Unit) (k : Host) :
    Prop where
  asks : s.Asks asked mains
  started : k.started = h.started ++ asked ++ mains
  honours : s.work.kind ≠ "lint" → ∀ c ∈ mains, HonoursLimit s j h asked c r k
  lacks : s.work.kind = "lint" → ∀ c ∈ mains, LacksLimit h asked c r k
  runs : s.work.kind ≠ "lint" → r = .ok () → mains ≠ []

theorem timed_asking {r : Except Fault Unit} (hasks : asked <+: s.questions) (hstarted : k.started = h.started ++ asked)
    (hr : s.work.kind ≠ "lint" → r ≠ .ok ()) : Timed s j h asked [] r k where
  asks := ⟨hasks, Nat.zero_le 1, fun hno => absurd rfl hno⟩
  started := by rw [hstarted, List.append_nil]
  honours := nofun
  lacks := nofun
  runs hkind hok := absurd hok (hr hkind)

theorem Answered.timed (hasked : Answered h asked k) (hquestions : asked = s.questions)
    {main : Except Fault Command} (hlimit : ∀ c, main = .ok c → c.timeout = s.mainLimit) :
    Timed s j h asked main.toOption.toList (s.mainEnd j k main).1 (s.mainEnd j k main).2 where
  asks := by
    refine ⟨hquestions ▸ List.prefix_refl _, ?_, fun _ => hquestions⟩
    cases main with
    | error f => exact Nat.zero_le 1
    | ok c => exact Nat.le_refl 1
  started := by rw [started_mainEnd, hasked.started]
  honours hkind c hc := by
    obtain rfl := mem_toOption_toList.1 hc
    exact hasked.honoursLimit hkind (hlimit c rfl)
  lacks hkind c hc := by
    obtain rfl := mem_toOption_toList.1 hc
    exact hasked.lacksLimit hkind (hlimit c rfl)
  runs _ hok := by
    cases main with
    | error f => cases hok
    | ok c => exact List.cons_ne_nil c []

/-- The main command of a step has the step's time limit and, if it takes longer, the step fails with code 124;
unless the step is a lint check, whose main command has no limit. -/
theorem limit_honoured {r : Except Fault Unit} (hon : (s.execute j root).on h = (r, k)) :
    ∃ asked mains, Timed s j h asked mains r k := by
  rw [on_execute] at hon
  cases hcourse : s.course j root h with
  | refused f =>
    rw [hcourse] at hon
    cases hon
    exact ⟨[], [], timed_asking List.nil_prefix (List.append_nil _).symm fun _ => nofun⟩
  | idle message =>
    rw [hcourse] at hon
    cases hon
    have hprint : ∀ e ∈ [Event.out (h.display.shown (Level.info.line message))], Act.IsPrint e := by
      simp [Act.IsPrint]
    refine ⟨[], [], timed_asking List.nil_prefix ?_ fun hkind => absurd (course_idle s j root hcourse) hkind⟩
    rw [Host.started_noting h hprint, List.append_nil]
  | working probe main =>
    obtain ⟨hquestions, hlimit⟩ := course_working s j root hcourse
    rw [hcourse] at hon
    cases probe with
    | none =>
      have hon : s.mainEnd j h main = (r, k) := hon
      have htimed := (answered_nil h).timed (j := j) hquestions hlimit
      rw [hon] at htimed
      exact ⟨_, _, htimed⟩
    | some p =>
      have hon : s.probedEnd j h p main = (r, k) := hon
      rcases hp : p.verdict h with f | ⟨⟩
      · rw [probedEnd_error s j h hp] at hon
        cases hon
        have hasked : [p.command] <+: s.questions := hquestions ▸ List.prefix_refl _
        exact ⟨[p.command], [], timed_asking hasked (Command.started_left _ _) fun _ => nofun⟩
      · rw [probedEnd_ok s j h hp] at hon
        have htimed := (answered_probe hp).timed (j := j) hquestions hlimit
        rw [hon] at htimed
        exact ⟨_, _, htimed⟩

end Step

namespace Sample

/-- A container run that may take five seconds. -/
def timedRun : Step := .inContainer "compile" "make" { image := "gcc" } none (some (.int 5))

/-- A lint check that may take five seconds. -/
def timedLint : Step := { Step.linting "style" { tool := "flake8" } with timeout := some (.int 5) }

/-- A host on which every second command takes too long. -/
def stalling : Host := replying fun past _ => if past.length % 2 = 1 then .overran else .ended 0 "" "" []

end Sample

namespace Step

/-- A container run is stopped at its limit, and has failed with code 124. -/
theorem limit_honoured_sample : ∃ asked mains f k,
    (Sample.timedRun.execute Sample.checks ⟨1, ["src"]⟩).on Sample.stalling = (.error (.step f), k) ∧
    f.exitCode = 124 ∧ Timed Sample.timedRun Sample.checks Sample.stalling asked mains (.error (.step f)) k ∧
    k.started.map (fun c => (c.program.text, c.timeout.map Number.text)) = [("docker --version", none),
      ("docker run --rm -v /src:/workspace -w /workspace gcc sh -c make", some "5")] := by
  have hon : (Sample.timedRun.execute Sample.checks ⟨1, ["src"]⟩).on Sample.stalling = _ := rfl
  obtain ⟨asked, mains, htimed⟩ := limit_honoured ⟨1, ["src"]⟩ hon
  exact ⟨asked, mains, _, _, rfl, rfl, htimed, by decide +kernel⟩

/-- A lint check with a limit starts its linter without one, and does not report that it took longer. -/
theorem lint_limit_ignored : Sample.timedLint.work.kind = "lint" ∧ Sample.timedLint.timeout = some (.int 5) ∧
    ∃ k p, (Sample.timedLint.execute Sample.checks ⟨1, ["src"]⟩).on Sample.stalling = (.error (.overran p none), k) ∧
      k.started.map (fun c => (c.program.text, c.timeout.map Number.text)) =
        [("flake8 --version", none), ("flake8 .", none)] :=
  ⟨rfl, rfl, _, _, rfl, by decide +kernel⟩

end Step

end CiPipeline
