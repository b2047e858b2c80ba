import CiPipeline.Proofs.Build.Directory
import CiPipeline.Proofs.Suite.Course
import CiPipeline.Proofs.Toolchain

/-
The report that a suite leaves (`suite_reports`). However its categories behave, and whether or not it is to end
with the first failure, the file says at the end what came of them: the tally of a suite that completes, or that of
the categories before the one that ended with a fault, which then goes on. There is one way for the report not to
be written where it could be: it asks for the version of the interpreter, and if what that prints is no text, the
suite ends with this fault instead.
-/

namespace CiPipeline

namespace Report

variable {c : SuiteConfig} {h h' : Host}

/-- The line at the end of a report. -/
def statusLine (pass : Bool) : String := "Test Status: " ++ (if pass then "PASS" else "FAIL") ++ "\n"

theorem text_eq (t : Tally) (c : SuiteConfig) (now : Moment) (python : String) (aborted : Option String) :
    ∃ top, text t c now python aborted = top ++ statusLine (isPass t aborted) := by
  have hlines : ∀ (ls : List String) (last : String), String.join ((ls ++ ["", last]).map (· ++ "\n")) =
      String.join ((ls ++ [""]).map (· ++ "\n")) ++ (last ++ "\n") := by
    intro ls last
    simp [String.append_assoc]
  exact ⟨_, hlines _ _⟩

/-- The command that asks for the version of the interpreter. -/
def pythonAsk : Command := Toolchain.versionAsk Build.python

/-- The report of a suite can be written: once the question for the version of the interpreter is answered, the
directory of the reports is there, and no directory in the place of the file. -/
def CanWrite (c : SuiteConfig) (h : Host) : Prop :=
  ∃ files, h.files.makeDirectory c.reports.parts = .ok files ∧
    (pythonAsk.left (h.holding files)).files.node? c.reports.parts = some .directory ∧
    (pythonAsk.left (h.holding files)).files.node? (file c).parts ≠ some .directory

/-- No report is written: the directory for it is made, and what else there is of files the question leaves. -/
def Unwritten (c : SuiteConfig) (h h' : Host) : Prop :=
  ∃ files, h.files.makeDirectory c.reports.parts = .ok files ∧ h'.files = (pythonAsk.left (h.holding files)).files

/-- The version of the interpreter as a report says it. -/
def python (line : Option String) : String := (line.filter (· ≠ "")).getD "unknown"

theorem on_render (t : Tally) (c : SuiteConfig) (aborted : Option String) (h : Host) : (render t c none aborted).on h =
    ((Toolchain.said h Build.python).map fun line => text t c h.clock (python line) aborted, pythonAsk.left h) := by
  have hasked := Toolchain.on_versionLine Build.python h
  rw [render]
  cases hsaid : Toolchain.said h Build.python with
  | error f =>
    rw [hsaid] at hasked
    exact Act.on_bind_error hasked
  | ok line =>
    rw [hsaid] at hasked
    rw [Act.on_bind_ok hasked, Act.on_bind_ok (Act.on_get _), pythonAsk, Command.left_eq]
    rfl

/-- The file of a report is in the directory of the reports. -/
theorem dropLast_file (c : SuiteConfig) : (file c).parts.dropLast = c.reports.parts := by
  have hname : Path.parse "test_summary.txt" = ⟨0, ["test_summary.txt"]⟩ := by decide
  rw [file, Path.child, hname]
  exact List.dropLast_concat

theorem on_save {path : Path} {content : String} {files : FileTree}
    (hwritten : h.files.write path.parts content = .ok files) :
    (save path content).on h = (.ok (), h.holding files) := by
  rw [save, Act.on_bind_ok (Act.on_get h), hwritten]
  rfl

/-- A report is written into its directory if no directory stands in the place of its file. -/
theorem on_keep (hparent : h.files.node? c.reports.parts = some .directory)
    (hplace : h.files.node? (file c).parts ≠ some .directory) (report : String) : ∃ h', (do
      save (file c) report
      Console.plain report
      Console.info ("Test report generated: " ++ (file c).text)).on h = (.ok (), h') ∧
    h'.files.node? (file c).parts = some (.file report) := by
  rw [← dropLast_file c] at hparent
  obtain ⟨events, -, hprint⟩ := (Act.prints_plain report).then
    (Act.prints_info ("Test report generated: " ++ (file c).text))
    (h.holding (h.files.put (file c).parts (.file report)))
  refine ⟨_, (Act.on_bind_ok (on_save (FileTree.write_eq hplace hparent report))).trans hprint, ?_⟩
  exact FileTree.node?_put _ fun hnil => hplace (by rw [hnil]; rfl)

/-- What a question leaves of the files does not depend on the journal. -/
theorem files_left (h : Host) (events : List Event) (ask : Command) :
    (ask.left (Act.noting h events)).files = (ask.left h).files := by
  have hbare := Command.bare_left_congr (Host.bare_noting h events) ask
  have hfiles : (ask.left (Act.noting h events)).bare.files = (ask.left h).bare.files := by rw [hbare]
  exact hfiles

theorem on_write_start {files : FileTree} (hmade : h.files.makeDirectory c.reports.parts = .ok files) (t : Tally)
    (aborted : Option String) : ∃ events, (write t c aborted).on h = (do
        let report ← render t c none aborted
        save (file c) report
        Console.plain report
        Console.info ("Test report generated: " ++ (file c).text)).on (Act.noting (h.holding files) events) := by
  obtain ⟨events, -, hinfo⟩ := Act.prints_info "Generating test report..." h
  have hdirectory : (Build.makeDirectory c.reports).on (Act.noting h events) =
      (.ok (), Act.noting (h.holding files) events) := Build.on_makeDirectory hmade
  exact ⟨events, by rw [write, Act.on_bind_ok hinfo, Act.on_bind_ok hdirectory]⟩

/-- When it can be written, the report of a tally is written: the file says what the report does, which
ends with the line about the status. -/
theorem on_write (hcan : CanWrite c h) {line : Option String} (hsaid : Toolchain.said h Build.python = .ok line)
    (t : Tally) (aborted : Option String) : ∃ report h',
    (write t c aborted).on h = (.ok (), h') ∧ ((render t c none aborted).on h).1 = .ok report ∧
      h'.files.node? (file c).parts = some (.file report) ∧ ∃ top, report = top ++ statusLine (isPass t aborted) := by
  obtain ⟨files, hmade, hparent, hplace⟩ := hcan
  obtain ⟨events, hwrite⟩ := on_write_start hmade t aborted
  have hrender := on_render t c aborted (Act.noting (h.holding files) events)
  have hsame : Toolchain.said (Act.noting (h.holding files) events) Build.python = .ok line := hsaid
  rw [hsame] at hrender
  rw [← files_left _ events] at hparent hplace
  obtain ⟨h', hkeep, hfile⟩ := on_keep hparent hplace (text t c h.clock (python line) aborted)
  refine ⟨text t c h.clock (python line) aborted, h', ?_, ?_, hfile, text_eq t c h.clock (python line) aborted⟩
  · rw [hwrite]
    exact (Act.on_bind_ok hrender).trans hkeep
  · rw [on_render, hsaid]
    rfl

/-- When the version of the interpreter cannot be found out, no report is written. -/
theorem on_write_error (hcan : CanWrite c h) {f : Fault} (hsaid : Toolchain.said h Build.python = .error f)
    (t : Tally) (aborted : Option String) : ∃ h', (write t c aborted).on h = (.error f, h') ∧ Unwritten c h h' := by
  obtain ⟨files, hmade, -⟩ := hcan
  obtain ⟨events, hwrite⟩ := on_write_start hmade t aborted
  have hrender := on_render t c aborted (Act.noting (h.holding files) events)
  have hsame : Toolchain.said (Act.noting (h.holding files) events) Build.python = .error f := hsaid
  rw [hsame] at hrender
  refine ⟨_, ?_, files, hmade, files_left (h.holding files) events pythonAsk⟩
  rw [hwrite]
  exact Act.on_bind_error hrender

end Report

namespace Suite

variable {c : SuiteConfig} {h : Host}

/-- The reports of a suite can be prepared: no file stands in the way of their directories. -/
def CanPrepare (c : SuiteConfig) (h : Host) : Prop :=
  ∃ made files, h.files.makeDirectory c.reports.parts = .ok made ∧
    made.makeDirectory c.coverageReports.parts = .ok files

/-- A suite of any categories, under a name. -/
def runNamed (selector : String) (c : SuiteConfig) (categories : List (String × Category)) : Act Tally := do
  announce selector c
  prepare c
  runReported c categories

/-- The host on which the categories of a suite begin. -/
def prepared (selector : String) (c : SuiteConfig) (h : Host) : Host :=
  ((do announce selector c; prepare c).on h).2

theorem prints_announce (selector : String) (c : SuiteConfig) : (announce selector c).Prints :=
  (Act.prints_info _).then ((Act.prints_info _).then (Act.prints_info _))

theorem on_prepare (selector : String) (hprep : CanPrepare c h) :
    (do announce selector c; prepare c).on h = (.ok (), prepared selector c h) := by
  obtain ⟨made, files, hmade, hfiles⟩ := hprep
  obtain ⟨events, -, hsay⟩ := prints_announce selector c h
  obtain ⟨events', -, hinfo⟩ := Act.prints_info "Setting up test environment..." (Act.noting h events)
  have hreports := Build.on_makeDirectory (h := Act.noting (Act.noting h events) events') hmade
  have hcoverage := Build.on_makeDirectory (h := (Act.noting (Act.noting h events) events').holding made) hfiles
  have hon : ∃ h', (do announce selector c; prepare c).on h = (.ok (), h') := by
    rw [Act.on_bind_ok hsay, prepare, Act.on_bind_ok hinfo, Act.on_bind_ok hreports]
    exact ⟨_, hcoverage⟩
  obtain ⟨h', hon⟩ := hon
  rw [prepared, hon]

/-- The note about where a suite was cut short: the class of the fault, and the last category before. -/
def breakNote (f : Fault) (before : List (String × Category)) : String :=
  f.className ++ " " ++
    match before.getLast? with
    | some (name, _) => "after category '" ++ name ++ "'"
    | none => "before any category finished"

theorem abortNote_eq {f : Fault} {course : Course} {before : List (String × Category)}
    (hlast : course.finished.getLast?.map (·.1) = before.getLast?.map (·.1)) (hnames : ∀ x ∈ before, x.1 ≠ "") :
    abortNote f course = breakNote f before := by
  unfold abortNote breakNote
  rw [hlast]
  cases hb : before.getLast? with
  | none => rfl
  | some x =>
    have hname : x.1 ≠ "" := hnames x (List.mem_of_getLast? hb)
    rw [Option.map_some, Option.filter_some_pos (by simpa using hname)]

theorem prints_conclude (t : Tally) : (conclude t).Prints := by
  unfold conclude
  exact .ite (Act.prints_plain _) (Act.prints_error _ _ _ _)

theorem on_runNamed (selector : String) (hprep : CanPrepare c h) (categories : List (String × Category)) :
    (runNamed selector c categories).on h = (runReported c categories).on (prepared selector c h) := by
  have hassoc : runNamed selector c categories =
      (do announce selector c; prepare c) >>= fun _ => runReported c categories := by
    rw [bind_assoc]
    rfl
  rw [hassoc, Act.on_bind_ok (on_prepare selector hprep)]

theorem on_runReported_none {categories : List (String × Category)} {course : Course} {h₁ : Host}
    (hcourse : (runCategories c {} categories).on h = (.ok course, h₁)) (hfault : course.fault = none) :
    (runReported c categories).on h = (do
      Report.write (course.tally {}) c
      conclude (course.tally {})
      return course.tally {}).on h₁ := by
  rw [runReported, Act.on_bind_ok hcourse]
  simp only [hfault]

theorem on_runReported_some {categories : List (String × Category)} {course : Course} {h₁ : Host} {f : Fault}
    (hcourse : (runCategories c {} categories).on h = (.ok course, h₁)) (hfault : course.fault = some f) :
    (runReported c categories).on h = (do
      Report.write (course.tally {}) c (some (abortNote f course))
      .fail f : Act Tally).on h₁ := by
  rw [runReported, Act.on_bind_ok hcourse]
  simp only [hfault]

theorem on_runNamed_completed {selector : String} {categories : List (String × Category)} {t : Tally} {h₁ : Host}
    (hprep : CanPrepare c h) (hc : Completes c {} (prepared selector c h) categories t h₁) :
    (runNamed selector c categories).on h = (do Report.write t c; conclude t; return t).on h₁ := by
  obtain ⟨course, hcourse, hfault, htally⟩ := hc.on_runCategories
  rw [on_runNamed selector hprep, on_runReported_none hcourse hfault, htally]

theorem on_runNamed_broken {selector : String} {categories before : List (String × Category)} {last : Tally} {f : Fault}
    {h₁ : Host} (hprep : CanPrepare c h) (hnames : ∀ x ∈ categories, x.1 ≠ "")
    (hb : Breaks c {} (prepared selector c h) categories before last f h₁) :
    (runNamed selector c categories).on h =
      (do Report.write last c (some (breakNote f before)); .fail f : Act Tally).on h₁ := by
  obtain ⟨course, hcourse, hfault, htally, hlast⟩ := hb.on_runCategories
  have hbefore : ∀ x ∈ before, x.1 ≠ "" := by
    cases hb with
    | mk hpass hon => exact fun x hx => hnames x (List.mem_append_left _ hx)
  rw [on_runNamed selector hprep, on_runReported_some hcourse hfault, htally, abortNote_eq hlast hbefore]

/-- A suite leaves a truthful report, whatever its categories do, provided that the version of the interpreter can
be found out for it. One that completes gives its tally, and the file says the report of that tally without a note,
which ends with the status that nothing or something has failed. One that is cut short ends with the fault of the
category that did it; nothing is done after that category but to write the report, which is that of the tally of the
categories before, with a note and a status that is not passed. One of the two is always the case. If the question
for the version ends with a fault, then both ways no report is written and it is that fault that the suite ends with. -/
theorem suite_reports (selector : String) (c : SuiteConfig) (categories : List (String × Category))
    (hnames : ∀ x ∈ categories, x.1 ≠ "") (h : Host) (hprep : CanPrepare c h) :
    (∀ t h₁, Completes c {} (prepared selector c h) categories t h₁ → Report.CanWrite c h₁ →
      (∀ line, Toolchain.said h₁ Build.python = .ok line → ∃ report h',
        (runNamed selector c categories).on h = (.ok t, h') ∧
        (do Report.write t c; conclude t).on h₁ = (.ok (), h') ∧
        ((Report.render t c).on h₁).1 = .ok report ∧
        h'.files.node? (Report.file c).parts = some (.file report) ∧
        ∃ top, report = top ++ Report.statusLine (t.failed = 0)) ∧
      ∀ f', Toolchain.said h₁ Build.python = .error f' → ∃ h',
        (runNamed selector c categories).on h = (.error f', h') ∧ Report.Unwritten c h₁ h') ∧
    (∀ before last f h₁, Breaks c {} (prepared selector c h) categories before last f h₁ → Report.CanWrite c h₁ →
      (∀ line, Toolchain.said h₁ Build.python = .ok line → ∃ report h',
        (runNamed selector c categories).on h = (.error f, h') ∧
        (Report.write last c (some (breakNote f before))).on h₁ = (.ok (), h') ∧
        ((Report.render last c none (some (breakNote f before))).on h₁).1 = .ok report ∧
        h'.files.node? (Report.file c).parts = some (.file report) ∧
        ∃ top, report = top ++ Report.statusLine false) ∧
      ∀ f', Toolchain.said h₁ Build.python = .error f' → ∃ h',
        (runNamed selector c categories).on h = (.error f', h') ∧ Report.Unwritten c h₁ h') ∧
    ((∃ t h₁, Completes c {} (prepared selector c h) categories t h₁) ∨
      ∃ before last f h₁, Breaks c {} (prepared selector c h) categories before last f h₁) ∧
    ∀ names find, CategoryName.select? selector = some names →
      run selector c find = runNamed selector c (names.map fun n => (n.word, find n)) := by
  refine ⟨fun t h₁ hc hcan => ?_, fun before last f h₁ hb hcan => ?_, completes_or_breaks c categories {} _,
    fun names find hselect => ?_⟩
  · have hrun := on_runNamed_completed hprep hc
    refine ⟨fun line hsaid => ?_, fun f' hsaid => ?_⟩
    · obtain ⟨report, h₂, hwrite, hrender, hfile, top, htop⟩ := Report.on_write hcan hsaid t none
      obtain ⟨events, -, hconclude⟩ := prints_conclude t h₂
      have hpass : Report.isPass t none = decide (t.failed = 0) := by simp [Report.isPass, Tally.isOk, beq_eq_decide]
      refine ⟨report, Act.noting h₂ events, ?_, ?_, hrender, hfile, top, by rw [htop, hpass]⟩
      · rw [hrun, Act.on_bind_ok hwrite, Act.on_bind_ok hconclude, Act.on_pure]
      · rw [Act.on_bind_ok hwrite, hconclude]
    · obtain ⟨h', hwrite, hunwritten⟩ := Report.on_write_error hcan hsaid t none
      exact ⟨h', hrun.trans (Act.on_bind_error hwrite), hunwritten⟩
  · have hrun := on_runNamed_broken hprep hnames hb
    refine ⟨fun line hsaid => ?_, fun f' hsaid => ?_⟩
    · obtain ⟨report, h', hwrite, hrender, hfile, top, htop⟩ :=
        Report.on_write hcan hsaid last (some (breakNote f before))
      refine ⟨report, h', ?_, hwrite, hrender, hfile, top, ?_⟩
      · rw [hrun, Act.on_bind_ok hwrite, Act.on_fail]
      · rw [htop, Report.isPass, Option.isNone_some, Bool.and_false]
    · obtain ⟨h', hwrite, hunwritten⟩ := Report.on_write_error hcan hsaid last (some (breakNote f before))
      exact ⟨h', hrun.trans (Act.on_bind_error hwrite), hunwritten⟩
  · have hnamed : select selector = .ok names := by rw [select, hselect]
    rw [run, hnamed]
    exact pure_bind names _

end Suite

namespace Sample

/-- A host on which the interpreter says its version. -/
def interpreted : Host where
  here := ⟨1, []⟩
  clock := ⟨2024, 1, 1, 0, 0, 0⟩
  settings := ⟨"", "", "", "main", 60⟩
  respond := fun _ _ => .ended 0 "Python 3.11.4\n" "" []

/-- A host on which the interpreter prints what is no text. -/
def illegible : Host := { interpreted with respond := fun _ _ => .garbled 0 "invalid start byte" [] }

/-- A suite of sources below the root. -/
def sources : SuiteConfig where
  source := ⟨1, ["src"]⟩

/-- A suite in which nothing fails. -/
def soundSuite : List (String × Category) := [("import", fun _ t => pure (t.add .passed "ok"))]

/-- A suite whose second category is interrupted when one of its checks has failed. -/
def interruptedSuite : List (String × Category) :=
  [("import", fun _ t => pure ((t.add .passed "ok").add .failed "broken")),
    ("deps", fun _ t => do
      let _ ← t.reject "half done"
      .fail .interrupted)]

end Sample

namespace Suite

/-- The interrupted suite: the report counts the first category only, and the interruption goes on. -/
theorem suite_reports_sample : ∃ h',
    (runNamed "all" Sample.sources Sample.interruptedSuite).on Sample.interpreted =
      (.error .interrupted, h') ∧
    h'.files.node? ["src", "test-reports", "test_summary.txt"] = some (.file
      ("MLC-LLM Test Summary\n===================\n\nTest Results:\n- Passed: 1\n- Failed: 1\n- Skipped: 0\n" ++
        "- Total: 2\n- Aborted: KeyboardInterrupt after category 'import'\n\nTest Environment:\n" ++
        "- Source Directory: /src\n- Test Directory: /src/tests\n- Python Version: Python 3.11.4\n" ++
        "- Date: 2024-01-01T00:00:00\n\nTest Status: FAIL\n")) := by
  have hprep : CanPrepare Sample.sources Sample.interpreted := ⟨_, _, rfl, rfl⟩
  have hbreaks : Breaks Sample.sources {} (prepared "all" Sample.sources Sample.interpreted) Sample.interruptedSuite
      (Sample.interruptedSuite.take 1) ⟨1, 1, 0, [(.passed, "ok"), (.failed, "broken")]⟩ .interrupted
      ((Tally.print .failed "half done").on (prepared "all" Sample.sources Sample.interpreted)).2 :=
    .mk (.cons "import" rfl (by simp [Stops, Sample.sources]) (.nil _ _)) rfl
  have hcan : Report.CanWrite Sample.sources
      ((Tally.print .failed "half done").on (prepared "all" Sample.sources Sample.interpreted)).2 :=
    ⟨_, rfl, by decide +kernel, by decide +kernel⟩
  have hsaid : Toolchain.said ((Tally.print .failed "half done").on
      (prepared "all" Sample.sources Sample.interpreted)).2 Build.python = .ok (some "Python 3.11.4") :=
    (Toolchain.said_of_ended (by decide) rfl).trans (congrArg Except.ok (by decide +kernel))
  obtain ⟨report, h', hon, -, hrender, hfile, -⟩ := ((suite_reports "all" Sample.sources Sample.interruptedSuite
    (by decide) Sample.interpreted hprep).2.1 _ _ _ _ hbreaks hcan).1 _ hsaid
  rw [Report.on_render, hsaid] at hrender
  have hreport := Except.ok.inj hrender
  have hplace : (Report.file Sample.sources).parts = ["src", "test-reports", "test_summary.txt"] := by decide +kernel
  rw [hplace] at hfile
  refine ⟨h', hon, hfile.trans (congrArg some (congrArg Node.file ?_))⟩
  rw [← hreport]
  decide +kernel

/-- A suite that completes leaves no report if the interpreter prints what is no text. -/
theorem illegible_version_unreported :
    (∃ t h₁, Completes Sample.sources {} (prepared "import" Sample.sources Sample.illegible) Sample.soundSuite t h₁ ∧
      Report.CanWrite Sample.sources h₁) ∧
    ∃ h', (runNamed "import" Sample.sources Sample.soundSuite).on Sample.illegible =
        (.error (.undecodable "invalid start byte"), h') ∧
      h'.files.node? ["src", "test-reports", "test_summary.txt"] = none := by
  have hcompletes : Completes Sample.sources {} (prepared "import" Sample.sources Sample.illegible) Sample.soundSuite
      ⟨1, 0, 0, [(.passed, "ok")]⟩ (prepared "import" Sample.sources Sample.illegible) :=
    .all (.cons "import" rfl (by simp [Stops, Sample.sources]) (.nil _ _))
  have hcan : Report.CanWrite Sample.sources (prepared "import" Sample.sources Sample.illegible) :=
    ⟨_, rfl, by decide +kernel, by decide +kernel⟩
  have hsaid : Toolchain.said (prepared "import" Sample.sources Sample.illegible) Build.python =
      .error (.undecodable "invalid start byte") := Toolchain.said_of_garbled (by decide) rfl
  refine ⟨⟨_, _, hcompletes, hcan⟩, ?_⟩
  obtain ⟨h', hwrite, files, hmade, hfiles⟩ := Report.on_write_error hcan hsaid ⟨1, 0, 0, [(.passed, "ok")]⟩ none
  refine ⟨h', (on_runNamed_completed ⟨_, _, rfl, rfl⟩ hcompletes).trans (Act.on_bind_error hwrite), ?_⟩
  rw [hfiles]
  cases hmade
  decide +kernel

end Suite

end CiPipeline
