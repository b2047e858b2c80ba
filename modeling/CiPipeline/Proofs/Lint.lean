import CiPipeline.Entrypoint
import CiPipeline.Proofs.Step.Isolation
import Mathlib.Data.List.TakeWhile

/-
Linting in a container. Each linter is first asked for its version, and if it is there, run over the
sources; what comes of that is its `Finding`. A linter that is not there, or that ends with another code than
nought, gives a warning and is followed by the next one. `lint_reports`: the answer is nought if every linter
gets that far. It is none, and the linters behind are not tried, if one cannot be asked for another reason
than that it is not there, if it cannot be started once it has answered, if it takes too long, or if what it
prints about the sources is no text.
-/

namespace CiPipeline

namespace Entrypoint

/-! ## What comes of a linter -/

/-- What comes of a linter: it is not there, or it ran to its end, or asking for it or running it broke off. -/
inductive Finding
  | unavailable
  | ran (e : Ended)
  | unasked (f : Fault)
  | unfinished (f : Fault)

/-- The command that asks whether a linter is there. -/
def question (l : String × Option String) : Command := { program := .words [l.1, "--version"] }

/-- Finds out whether a linter is there. -/
def probe (l : String × Option String) : Step.Probe := ⟨question l, Linter.unavailable l.1⟩

/-- The command that runs a linter over the sources. -/
def inspection (c : Context) (l : String × Option String) : Command where
  program := .words (l.1 :: l.2.toList ++ ["python/"])
  cwd := some c.path.text
  env := some c.values
  reads := true

/-- What comes of a linter on a host. -/
def finding (c : Context) (l : String × Option String) (h : Host) : Finding :=
  match (question l).outcome h with
  | .error f => if f.isNotFound then .unavailable else .unasked f
  | .ok e =>
    if e.isSuccess then
      match (inspection c l).outcome ((question l).left h) with
      | .error f => .unfinished f
      | .ok e => .ran e
    else .unavailable

namespace Finding

/-- The fault that a linter broke off with. -/
def fault? : Finding → Option Fault
  | .unavailable | .ran _ => none
  | .unasked f | .unfinished f => some f

/-- The commands of a linter that were started. -/
def commands (c : Context) (l : String × Option String) : Finding → List Command
  | .unavailable | .unasked _ => [question l]
  | .ran _ | .unfinished _ => [question l, inspection c l]

/-- What is printed of a linter's own output. -/
def output? : Finding → Option String
  | .ran e => if Text.strip e.output = "" then none else some (Text.strip e.output)
  | _ => none

/-- The warning about a linter. -/
def warning? (tool : String) : Finding → Option String
  | .unavailable => some ("tool_unavailable: " ++ tool ++ " is not available")
  | .ran e => if e.isSuccess then none else some (tool ++ " reported issues (exit " ++ toString e.code ++ ")")
  | .unasked _ | .unfinished _ => none

/-- What is printed when a linter is done with. -/
def report (d : Display) (tool : String) (r : Finding) : List Event :=
  (r.output?.map fun o => Event.out (d.shown o)).toList ++
    ((r.warning? tool).map fun w => Event.err (d.shown (Level.warning.line w))).toList

end Finding

/-- What is printed before a linter is asked for. -/
def announcement (d : Display) (tool : String) : Event := .out (d.shown (Level.info.line ("Running " ++ tool ++ "...")))

/-- All that a linter adds to the journal. -/
def events (d : Display) (c : Context) (p : (String × Option String) × Finding) : List Event :=
  announcement d p.1.1 :: (p.2.commands c p.1).map .started ++ p.2.report d p.1.1

/-- The host as the commands of a linter leave it. -/
def left (c : Context) (l : String × Option String) (h : Host) : Finding → Host
  | .unavailable | .unasked _ => (question l).left h
  | .ran _ | .unfinished _ => (inspection c l).left ((question l).left h)

/-- The host as a linter leaves it. -/
def after (c : Context) (l : String × Option String) (h : Host) : Host :=
  let k := Act.noting h [announcement h.display l.1]
  let r := finding c l k
  Act.noting (left c l k r) (r.report h.display l.1)

/-- What comes of linters one after another, up to the first that breaks off. -/
def findings (c : Context) : List (String × Option String) → Host → List ((String × Option String) × Finding)
  | [], _ => []
  | l :: ls, h =>
    let r := finding c l (Act.noting h [announcement h.display l.1])
    (l, r) :: if r.fault?.isSome then [] else findings c ls (after c l h)

variable {c : Context} {l : String × Option String} {h : Host}

theorem command_checkOf (hl : l ∈ linters) :
    (checkOf l).task.tool = .text l.1 ∧
      (checkOf l).task.command = .ok ((l.1 :: l.2.toList ++ ["python/"]).map .text) := by
  simp only [linters, List.mem_cons, List.not_mem_nil, or_false] at hl
  rcases hl with rfl | rfl | rfl <;> exact ⟨rfl, rfl⟩

/-- Of lines that are joined, the first one stands before the first line feed. -/
theorem beforeNewline_join {s : String} (hs : '\n' ∉ s.toList) : ∀ lines : List String,
    Text.beforeNewline (Text.join "\n" (s :: lines)) = s := by
  have hline : ∀ c ∈ s.toList, (c != '\n') = true := fun c hc => bne_iff_ne.2 fun hline => hs (hline ▸ hc)
  rintro (_ | ⟨t, lines⟩)
  · rw [Text.join, Text.beforeNewline, List.takeWhile_eq_self_iff.2 hline, String.ofList_toList]
  · rw [Text.join_cons_cons, Text.beforeNewline, String.toList_append, String.toList_append, List.append_assoc,
      List.takeWhile_append_of_pos hline]
    exact (congrArg String.ofList (List.append_nil _)).trans String.ofList_toList

theorem warning_unavailable (hl : l ∈ linters) :
    Text.beforeNewline (Fault.pipeline (Linter.unavailable l.1)).message =
      "tool_unavailable: " ++ l.1 ++ " is not available" := by
  have hline : '\n' ∉ ("tool_unavailable" ++ ": " ++ (l.1 ++ " is not available")).toList := by
    simp only [linters, List.mem_cons, List.not_mem_nil, or_false] at hl
    rcases hl with rfl | rfl | rfl <;> decide +kernel
  refine (beforeNewline_join hline _).trans ?_
  rw [← String.append_assoc]
  rfl

theorem on_check (l : String × Option String) (h : Host) : (Linter.check (.text l.1)).on h =
    ((probe l).verdict h, (question l).left h) := by
  have hwords : Program.ofValues [.text l.1, .text "--version"] = (question l).program :=
    Program.ofValues_texts [l.1, "--version"]
  rw [Linter.check, hwords]
  exact Step.on_probe h (probe l)

/-- What comes of a linter by how it answers, whether it is there, and then by how it ends. -/
theorem finding_spec (c : Context) (l : String × Option String) (h : Host) :
    (finding c l h = .unavailable ∧
      (probe l).verdict h = .error (.pipeline (Linter.unavailable l.1))) ∨
    (∃ f, finding c l h = .unasked f ∧ (question l).outcome h = .error f ∧ f.isNotFound = false ∧
      (probe l).verdict h = .error f) ∨
    (probe l).verdict h = .ok () ∧
      ((∃ f, finding c l h = .unfinished f ∧ (inspection c l).outcome ((question l).left h) = .error f) ∨
        ∃ e, finding c l h = .ran e ∧ (inspection c l).outcome ((question l).left h) = .ok e) := by
  unfold finding Step.Probe.verdict probe
  cases hasked : (question l).outcome h with
  | error f => cases hfound : f.isNotFound <;> simp [hfound]
  | ok e =>
    cases hsuccess : e.isSuccess with
    | false => simp [hsuccess]
    | true => cases hran : (inspection c l).outcome ((question l).left h) <;> simp [hsuccess]

/-- Running a linter gives what comes of it; if it is not there, that is an error of the pipeline. -/
theorem on_run (hl : l ∈ linters) (h : Host) :
    (Linter.run (checkOf l).task c.path.text c.values).on h =
      (match finding c l h with
        | .unavailable => .error (.pipeline (Linter.unavailable l.1))
        | .ran e => .ok e
        | .unasked f | .unfinished f => .error f,
        left c l h (finding c l h)) := by
  obtain ⟨htool, hcommand⟩ := command_checkOf hl
  have hprobe := on_check l h
  rw [Linter.run, htool, hcommand]
  rcases finding_spec c l h with ⟨hfinding, hp⟩ | ⟨f, hfinding, -, -, hp⟩ | ⟨hp, hended⟩
  · rw [hp] at hprobe
    rw [hfinding]
    exact Act.on_bind_error hprobe
  · rw [hp] at hprobe
    rw [hfinding]
    exact Act.on_bind_error hprobe
  · rw [hp] at hprobe
    have hwords : Program.ofValues ((l.1 :: l.2.toList ++ ["python/"]).map .text) = (inspection c l).program :=
      Program.ofValues_texts _
    refine (Act.on_bind_ok hprobe).trans ?_
    show (Command.start { program := Program.ofValues (List.map _ _), cwd := _, env := _, reads := true }).on _ = _
    rw [hwords]
    refine (Command.on_start (inspection c l) ((question l).left h)).trans ?_
    rcases hended with ⟨f, hfinding, hf⟩ | ⟨e, hfinding, he⟩
    · rw [hfinding, hf]
      rfl
    · rw [hfinding, he]
      rfl

theorem frame_left (c : Context) (l : String × Option String) (h : Host) (r : Finding) :
    (left c l h r).frame = h.frame := by
  cases r with
  | unavailable | unasked f => exact Host.frame_left h _
  | ran e | unfinished f => exact (Host.frame_left _ _).trans (Host.frame_left h _)

/-- What is printed of a linter that ran to its end. -/
theorem on_printed (tool : String) (e : Ended) (h : Host) : Act.on (do
      if Text.strip e.output ≠ "" then Console.plain (Text.strip e.output)
      if !e.isSuccess then Console.warning (tool ++ " reported issues (exit " ++ toString e.code ++ ")")) h =
    (.ok (), Act.noting h ((Finding.ran e).report h.display tool)) := by
  have hwarning : ∀ k : Host, k.display = h.display → Act.on (do
      if !e.isSuccess then Console.warning (tool ++ " reported issues (exit " ++ toString e.code ++ ")")) k =
        (.ok (), Act.noting k (((Finding.ran e).warning? tool).map fun w =>
          Event.err (h.display.shown (Level.warning.line w))).toList) := by
    intro k hk
    rw [← hk, Finding.warning?]
    cases e.isSuccess with
    | true => exact congrArg _ (Act.noting_nil k).symm
    | false => rfl
  rw [Finding.report, Finding.output?]
  by_cases hempty : Text.strip e.output = ""
  · rw [if_neg (not_not_intro hempty), if_pos hempty]
    exact hwarning h rfl
  · rw [if_pos hempty, if_neg hempty, ← Act.noting_noting]
    exact (Act.on_bind_ok (Act.on_plain _ h)).trans (hwarning _ rfl)

/-- A linter adds to the journal and may change files. It ends with the fault that it broke off with, if it did. -/
theorem on_lintWith (hl : l ∈ linters) (h : Host) :
    (lintWith c l).on h = (match (finding c l (Act.noting h [announcement h.display l.1])).fault? with
      | some f => .error f
      | none => .ok (), after c l h) := by
  have hannounced : (Console.info ("Running " ++ l.1 ++ "...")).on h =
      (.ok (), Act.noting h [announcement h.display l.1]) := rfl
  have hrun := on_run (c := c) hl (Act.noting h [announcement h.display l.1])
  have hdisplay : ∀ r, (left c l (Act.noting h [announcement h.display l.1]) r).display = h.display := fun r =>
    Host.display_of_frame (frame_left c l _ r)
  rw [lintWith, Act.on_bind_ok hannounced, Act.on_bind_ok (Act.on_attempt _ _), hrun, after]
  generalize Act.noting h [announcement h.display l.1] = k at hdisplay ⊢
  rcases finding_spec c l k with ⟨hfinding, -⟩ | ⟨f, hfinding, hf, -, -⟩ | ⟨-, ⟨f, hfinding, hf⟩ | ⟨e, hfinding, he⟩⟩
  · rw [hfinding, ← hdisplay .unavailable]
    show (Console.warning (Text.beforeNewline (Fault.pipeline (Linter.unavailable l.1)).message)).on _ = _
    rw [warning_unavailable hl]
    rfl
  · rw [hfinding, ← hdisplay (.unasked f)]
    simp only [Command.isPipeline_of_outcome hf, Finding.report, Finding.output?, Finding.warning?]
    exact congrArg _ (Act.noting_nil _).symm
  · rw [hfinding, ← hdisplay (.unfinished f)]
    simp only [Command.isPipeline_of_outcome hf, Finding.report, Finding.output?, Finding.warning?]
    exact congrArg _ (Act.noting_nil _).symm
  · rw [hfinding, ← hdisplay (.ran e)]
    exact on_printed l.1 e _

/-! ## What is left behind -/

theorem journal_left (c : Context) (l : String × Option String) (h : Host) (r : Finding) :
    (left c l h r).journal = h.journal ++ (r.commands c l).map .started := by
  cases r with
  | unavailable | unasked f =>
    rw [left, Command.left_eq]
    rfl
  | ran e | unfinished f =>
    rw [left, Command.left_eq, Command.left_eq]
    exact List.append_assoc ..

theorem journal_after (c : Context) (l : String × Option String) (h : Host) : (after c l h).journal =
    h.journal ++ events h.display c (l, finding c l (Act.noting h [announcement h.display l.1])) := by
  rw [after, Act.noting, journal_left, Act.noting, List.append_assoc, List.append_assoc]
  rfl

theorem frame_after (c : Context) (l : String × Option String) (h : Host) : (after c l h).frame = h.frame :=
  (Host.frame_noting _ _).trans ((frame_left c l _ _).trans (Host.frame_noting h _))

/-- How a linter breaks off: the system refuses it, or it takes too long, where one that is not there does not
count; or, when it is run, a null character stands in what it is given, or what it prints is no text. -/
inductive BreaksOff : Finding → Fault → Prop
  | unasked {f : Fault} (hcause : f.isOs = true ∨ f.isTimeout = true) (hfound : f.isNotFound = false) :
      BreaksOff (.unasked f) f
  | unfinished {f : Fault} (hcause : f.isOs = true ∨ f.isTimeout = true) : BreaksOff (.unfinished f) f
  | null : BreaksOff (.unfinished .nullInPath) .nullInPath
  | unread (why : String) : BreaksOff (.unfinished (.undecodable why)) (.undecodable why)

theorem isOs_os (e : OsError) (about : String) : (Fault.os e about).isOs = true := by cases e <;> rfl

/-- The names of the linters hold no null character, and nothing that they print when they are asked is read. -/
theorem breaksOff_of_question (hl : l ∈ linters) (hcalm : h.Calm) {f : Fault} (hf : (question l).outcome h = .error f)
    (hfound : f.isNotFound = false) : BreaksOff (.unasked f) f := by
  obtain ⟨hfails, hcalm⟩ := hcalm.fails_of_outcome hf
  cases hfails with
  | refused e about => exact .unasked (.inl (isOs_os e about)) hfound
  | overran => exact .unasked (.inr rfl) hfound
  | null hnull =>
    have hfree : (question l).hasNull = false := by
      simp only [linters, List.mem_cons, List.not_mem_nil, or_false] at hl
      rcases hl with rfl | rfl | rfl <;> decide +kernel
    rw [hfree] at hnull
    cases hnull
  | noWord hword => cases hword
  | unawaited hwait => cases hwait
  | unread hreads => cases hreads
  | interrupted => exact absurd rfl hcalm

theorem breaksOff_of_inspection (hcalm : h.Calm) {f : Fault} (hf : (inspection c l).outcome h = .error f) :
    BreaksOff (.unfinished f) f := by
  obtain ⟨hfails, hcalm⟩ := hcalm.fails_of_outcome hf
  cases hfails with
  | refused e about => exact .unfinished (.inl (isOs_os e about))
  | overran => exact .unfinished (.inr rfl)
  | null => exact .null
  | unread => exact .unread _
  | noWord hword => cases hword
  | unawaited hwait => cases hwait
  | interrupted => exact absurd rfl hcalm

theorem breaksOff_of_finding (hl : l ∈ linters) (hcalm : h.Calm) (f : Fault) (hf : (finding c l h).fault? = some f) :
    BreaksOff (finding c l h) f := by
  rcases finding_spec c l h with
    ⟨hfinding, -⟩ | ⟨g, hfinding, hg, hfound, -⟩ | ⟨-, ⟨g, hfinding, hg⟩ | ⟨e, hfinding, -⟩⟩
  · rw [hfinding] at hf
    cases hf
  · rw [hfinding] at hf ⊢
    cases hf
    exact breaksOff_of_question hl hcalm hg hfound
  · rw [hfinding] at hf ⊢
    cases hf
    exact breaksOff_of_inspection (hcalm.congr (Host.frame_left h _)) hg
  · rw [hfinding] at hf
    cases hf

/-! ## Linters one after another -/

/-- All linters got to their end. -/
def Completed (ls : List (String × Option String)) (found : List ((String × Option String) × Finding)) : Prop :=
  found.map (·.1) = ls ∧ ∀ p ∈ found, p.2.fault? = none

/-- Linters were tried up to one that broke off. -/
def BrokeOff (ls : List (String × Option String)) (found : List ((String × Option String) × Finding)) (f : Fault) :
    Prop :=
  ∃ done l r rest, found = done ++ [(l, r)] ∧ ls = done.map (·.1) ++ l :: rest ∧ (∀ p ∈ done, p.2.fault? = none) ∧
    BreaksOff r f

theorem on_forM_lintWith : ∀ {ls : List (String × Option String)} {h : Host}, (∀ l ∈ ls, l ∈ linters) → h.Calm → ∃ k,
    k.journal = h.journal ++ (findings c ls h).flatMap (events h.display c) ∧
    ((ls.forM (lintWith c)).on h = (.ok (), k) ∧ Completed ls (findings c ls h) ∨
      ∃ f, (ls.forM (lintWith c)).on h = (.error f, k) ∧ BrokeOff ls (findings c ls h) f)
  | [], h, _, _ => ⟨h, (List.append_nil _).symm, .inl ⟨rfl, rfl, List.forall_mem_nil _⟩⟩
  | l :: ls, h, hls, hcalm => by
    have hone := on_lintWith (c := c) (hls l (List.mem_cons_self ..)) h
    have hjournal := journal_after c l h
    have hfault := breaksOff_of_finding (c := c) (h := Act.noting h [announcement h.display l.1])
      (hls l (List.mem_cons_self ..)) (hcalm.congr (Host.frame_noting h _))
    rw [findings]
    generalize finding c l (Act.noting h [announcement h.display l.1]) = r at hone hjournal hfault ⊢
    cases hr : r.fault? with
    | some f =>
      rw [hr] at hone
      have hbroke : BrokeOff (l :: ls) [(l, r)] f :=
        ⟨[], l, r, ls, rfl, rfl, List.forall_mem_nil _, hfault f hr⟩
      refine ⟨after c l h, ?_, .inr ⟨f, Act.on_bind_error hone, hbroke⟩⟩
      simpa using hjournal
    | none =>
      rw [hr] at hone
      have hframe := frame_after c l h
      have hdisplay := Host.display_of_frame hframe
      have hthose : ∀ m ∈ ls, m ∈ linters := fun m hm => hls m (List.mem_cons_of_mem _ hm)
      obtain ⟨k, hk, hrest⟩ := on_forM_lintWith hthose (hcalm.congr hframe)
      refine ⟨k, ?_, ?_⟩
      · rw [hk, hjournal, hdisplay, List.append_assoc]
        rfl
      · rcases hrest with ⟨hon, hnames, hnone⟩ | ⟨f, hon, done, m, b, rest, hfound, hls, hnone, hf⟩
        · refine .inl ⟨(Act.on_bind_ok hone).trans hon, congrArg (l :: ·) hnames, ?_⟩
          exact List.forall_mem_cons.2 ⟨hr, hnone⟩
        · refine .inr ⟨f, (Act.on_bind_ok hone).trans hon, (l, r) :: done, m, b, rest, congrArg ((l, r) :: ·) hfound,
            congrArg (l :: ·) hls, List.forall_mem_cons.2 ⟨hr, hnone⟩, hf⟩

/-! ## The whole operation -/

/-- What is printed first. -/
def opening (d : Display) : Event := .out (d.shown (Level.info.line "Running linting checks..."))

theorem on_opening (h : Host) :
    (Console.info "Running linting checks...").on h = (.ok (), Act.noting h [opening h.display]) := rfl

theorem on_lint (c : Context) (hcalm : h.Calm) (hpython : h.hasDirectory (c.path.child "python") = true) : ∃ k,
    k.journal = h.journal ++ opening h.display ::
      (findings c linters (Act.noting h [opening h.display])).flatMap (events h.display c) ∧
    ((lint c).on h = (.ok 0, k) ∧ Completed linters (findings c linters (Act.noting h [opening h.display])) ∨
      ∃ f, (lint c).on h = (.error f, k) ∧
        BrokeOff linters (findings c linters (Act.noting h [opening h.display])) f) := by
  have hthere : (!(Act.noting h [opening h.display]).hasDirectory (c.path.child "python")) = false :=
    congrArg not hpython
  have hall : ∀ l ∈ linters, l ∈ linters := fun _ hl => hl
  obtain ⟨k, hk, hrun⟩ := on_forM_lintWith (c := c) hall (hcalm.congr (Host.frame_noting h [opening h.display]))
  have hlint : (lint c).on h = Act.on (do linters.forM (lintWith c); return 0) (Act.noting h [opening h.display]) := by
    rw [lint, Act.on_bind_ok (on_opening h), Act.on_bind_ok (Act.on_get _), hthere]
    rfl
  refine ⟨k, ?_, ?_⟩
  · rw [hk]
    exact List.append_assoc ..
  · rw [hlint]
    rcases hrun with ⟨hon, hcompleted⟩ | ⟨f, hon, hbroke⟩
    · exact .inl ⟨Act.on_bind_ok hon, hcompleted⟩
    · exact .inr ⟨f, Act.on_bind_error hon, hbroke⟩

/-- A linter that is not there, or finds something, has a warning among what it adds to the journal. -/
theorem warned_of_finding {p : (String × Option String) × Finding}
    (hp : p.2 = .unavailable ∨ ∃ e, p.2 = .ran e ∧ e.code ≠ 0) (d : Display) (c : Context) :
    ∃ w, Event.err (d.shown (Level.warning.line w)) ∈ events d c p := by
  have hwarning : ∃ w, p.2.warning? p.1.1 = some w := by
    rcases hp with hunavailable | ⟨e, hran, hcode⟩
    · exact ⟨_, by rw [hunavailable]; rfl⟩
    · have hfailed : e.isSuccess = false := beq_false_of_ne hcode
      exact ⟨_, by rw [hran, Finding.warning?, hfailed]; rfl⟩
  obtain ⟨w, hw⟩ := hwarning
  refine ⟨w, List.mem_append_right _ (List.mem_append_right _ ?_)⟩
  rw [hw]
  exact List.mem_singleton_self _

/-- What is said when there is nothing to lint. -/
def nothingThere (d : Display) (c : Context) : Event :=
  .err (d.shown (Level.warning.line ("No python/ directory under " ++ c.source ++ ", nothing to lint")))

theorem on_lint_nothing (c : Context) (hno : h.hasDirectory (c.path.child "python") = false) :
    (lint c).on h = (.ok 0, Act.noting h [opening h.display, nothingThere h.display c]) := by
  have hthere : (!(Act.noting h [opening h.display]).hasDirectory (c.path.child "python")) = true :=
    congrArg not hno
  rw [lint, Act.on_bind_ok (on_opening h), Act.on_bind_ok (Act.on_get _), hthere]
  exact congrArg _ (Act.noting_noting h _ _)

/-- Without interruptions, linting starts nothing if there is no directory of sources. Otherwise the linters are
tried in order, and one that is not there, or finds something, gives a warning. If all of them got to their end the
answer is nought; the only other ending is the fault of the first that broke off, which can be that of output that
is no text. -/
theorem lint_reports (words : List String) (x : Option Context) (h : Host) (hcalm : h.Calm) : ∃ c found,
    c = x.getD (.ofHost h none) ∧ found = findings c linters (Act.noting h [opening h.display]) ∧
    (h.hasDirectory (c.path.child "python") = false → (dispatch ("lint" :: words) x).on h =
      (.ok 0, Act.noting h [opening h.display, nothingThere h.display c])) ∧
    (h.hasDirectory (c.path.child "python") = true →
      (∀ p ∈ found, (p.2 = .unavailable ∨ ∃ e, p.2 = .ran e ∧ e.code ≠ 0) →
        ∃ w, Event.err (h.display.shown (Level.warning.line w)) ∈ events h.display c p) ∧
      ∃ k, k.journal = h.journal ++ opening h.display :: found.flatMap (events h.display c) ∧
        ((dispatch ("lint" :: words) x).on h = (.ok 0, k) ∧ Completed linters found ∨
          ∃ f, (dispatch ("lint" :: words) x).on h = (.error f, k) ∧ BrokeOff linters found f)) := by
  have hdispatch : (dispatch ("lint" :: words) x).on h = (lint (x.getD (.ofHost h none))).on h :=
    (Act.on_bind_ok (Act.on_get h)).trans rfl
  rw [hdispatch]
  exact ⟨_, _, rfl, rfl, on_lint_nothing _, fun hpython =>
    ⟨fun p _ hp => warned_of_finding hp _ _, on_lint _ hcalm hpython⟩⟩

end Entrypoint

namespace Sample

/-- Where the sources are in a container. -/
def inSources : Entrypoint.Context := ⟨"/src", {}⟩

/-- A host with sources to lint, where commands meet with the given replies. -/
def lintable (respond : Command → Reply) : Host :=
  { replying fun _ c => respond c with files := ⟨[(["src"], .directory), (["src", "python"], .directory)]⟩ }

/-- A host without the first linter, where the second one finds something. -/
def untidy : Host := lintable fun c =>
  if c.program.name = "black" then .refused .noEntry
  else if c.program.text = "flake8 python/" then .ended 1 "E501\n" "" []
  else .ended 0 "" "" []

/-- A host where the first linter must not be started. -/
def guarded : Host := lintable fun c =>
  if c.program.name = "black" then .refused .denied else .ended 0 "" "" []

end Sample

namespace Entrypoint

/-- A linter that is not there and one that finds something are warned about, and the third one is run. -/
theorem lint_reports_sample : Sample.untidy.Calm ∧ ∃ k,
    (dispatch ["lint"] (some Sample.inSources)).on Sample.untidy = (.ok 0, k) ∧
    k.started.map (·.program.text) = ["black --version", "flake8 --version", "flake8 python/", "mypy --version",
      "mypy python/"] ∧
    (k.journal.filterMap fun | .err t => some t | _ => none) =
      ["[WARNING] tool_unavailable: black is not available\n", "[WARNING] flake8 reported issues (exit 1)\n"] := by
  have hcalm : Sample.untidy.Calm := by
    intro past c
    show (if _ then _ else if _ then _ else _ : Reply) ≠ .interrupted
    split
    · exact Reply.noConfusion
    · split <;> exact Reply.noConfusion
  obtain ⟨c, found, rfl, rfl, -, hlints⟩ := lint_reports [] (some Sample.inSources) Sample.untidy hcalm
  obtain ⟨-, k, hk, hend⟩ := hlints (by decide +kernel)
  have hok : ((dispatch ["lint"] (some Sample.inSources)).on Sample.untidy).1.toOption = some 0 := by decide +kernel
  rcases hend with ⟨hon, -⟩ | ⟨f, hon, -⟩
  · refine ⟨hcalm, k, hon, ?_, ?_⟩
    · rw [Host.started, hk]
      decide +kernel
    · rw [hk]
      decide +kernel
  · rw [hon] at hok
    cases hok

/-- If the system refuses to start the first linter, linting ends with that fault and no other one is tried. -/
theorem lint_breaks_off : Sample.guarded.Calm ∧
    Sample.guarded.hasDirectory (Sample.inSources.path.child "python") = true ∧
    ((dispatch ["lint"] (some Sample.inSources)).on Sample.guarded).1 = .error (.os .denied "black") ∧
    ((dispatch ["lint"] (some Sample.inSources)).on Sample.guarded).2.started =
      [{ program := .words ["black", "--version"] }] := by
  refine ⟨fun past c => ?_, by decide +kernel, rfl, rfl⟩
  show (if _ then _ else _ : Reply) ≠ .interrupted
  split <;> exact Reply.noConfusion

end Entrypoint

end CiPipeline
