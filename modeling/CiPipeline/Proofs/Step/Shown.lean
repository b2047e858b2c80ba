import CiPipeline.Job
import CiPipeline.Proofs.Step.Isolation
import CiPipeline.Proofs.Words

/-
The command that is shown for a step of the container service. For an image build it is written from the
build, and the command that is started is made from the table that the build was put into; for a container run
with words of its own it shows these words only. `shown_command_runs`: a shell that reads what is shown gets
the words that are started, for a container run those behind the image. The order of build arguments makes no
difference.
-/

namespace CiPipeline

/-! ## From a build to its table and back -/

namespace ImageBuild

variable (b : ImageBuild String)

/-- The command line of a build stays the same when its words are taken as values. -/
theorem command_toValues : b.toValues.command = b.command.map .text := by
  have htexts : ∀ words : List String, (Word.texts words : List Value) = (Word.texts words : List String).map .text :=
    fun words => (List.map_map ..).symm
  have htags : b.toValues.tagWords = b.tagWords.map .text := by
    rw [tagWords, tagWords, List.map_flatMap]
    exact List.flatMap_map ..
  unfold command
  rw [htags, htexts, htexts, htexts, htexts]
  simp only [List.map_append]
  rfl

theorem ofData_toData : ofData b.toData = .ok b.toValues := rfl

variable {b}

/-- The build arguments stand in the order of their names, whatever order they were given in. -/
theorem command_congr {arguments : Dict Value} (h : b.buildArgs.Alike arguments) :
    { b with buildArgs := arguments }.command = b.command := by
  have hwords : argumentWords arguments = argumentWords b.buildArgs := by
    rw [argumentWords, argumentWords, h.mergeSort_entries_eq]
  rw [command, hwords]
  rfl

end ImageBuild

/-! ## From a container run to its table and back -/

namespace ContainerRun

variable (r : ContainerRun String)

/-- A run that is read back has no user if the name of its user is empty. -/
theorem ofData_toData : ofData r.toData = .ok { r.toValues with user := r.toValues.user.filter Word.isGiven } := by
  rcases r with ⟨image, argv, volumes, ⟨env⟩, user, mountRepo⟩
  cases argv <;> cases user <;> cases volumes <;> cases env <;> cases mountRepo <;> rfl

/-- The command line of a run can be made from its table. -/
theorem command_ofData (env : Dict Value) (cwd : Option String) (run root : String) :
    ((ofData r.toData).map fun v => v.command env cwd run root) = .ok ((r.command env cwd run root).map .text) := by
  have huser : userWords { r.toValues with user := r.toValues.user.filter Word.isGiven } = r.toValues.userWords := by
    rw [userWords, userWords, Option.filter_filter]
    simp only [Bool.and_self]
  have hsame : command { r.toValues with user := r.toValues.user.filter Word.isGiven } env cwd run root =
      r.toValues.command env cwd run root := by
    unfold command
    rw [huser]
    rfl
  rw [ofData_toData, ← command_toValues]
  exact congrArg Except.ok hsame

end ContainerRun

/-! ## What is started -/

namespace Step

/-- A step that asks for the container service and then starts one command at most, and one if it is
completed; the words of that are `argv`. -/
def StartsMain (s : Step) (j : Job) (root : Path) (h : Host) (argv : List String) : Prop :=
  ∃ mains, ((s.execute j root).on h).2.started = h.started ++ { program := .words ["docker", "--version"] } :: mains ∧
    mains.length ≤ 1 ∧ (((s.execute j root).on h).1 = .ok () → mains ≠ []) ∧ ∀ c ∈ mains, c.program = .words argv

variable {s : Step} {j : Job} {root : Path} {h : Host}

theorem startsMain_of_probedEnd {main : Except Fault Command} {argv : List String}
    (hend : (s.execute j root).on h = s.probedEnd j h dockerProbe main)
    (hmain : ∀ c, main = .ok c → c.program = .words argv) : s.StartsMain j root h argv := by
  have hstarted := started_probedEnd (s := s) (j := j) (h := h) dockerProbe main
  rw [StartsMain, hend]
  rcases hp : dockerProbe.verdict h with f | ⟨⟩
  · -- the service is not there
    rw [hp] at hstarted
    refine ⟨[], hstarted, Nat.zero_le 1, fun hok => ?_, fun c hc => by cases hc⟩
    rw [probedEnd_error s j h hp] at hok
    cases hok
  · rw [hp] at hstarted
    refine ⟨_, hstarted, ?_, fun hok => ?_, fun c hc => hmain c (mem_toOption_toList.1 hc)⟩
    · cases main <;> simp [Except.toOption]
    · rw [probedEnd_ok s j h hp] at hok
      cases main with
      | error f => cases hok
      | ok c => exact List.cons_ne_nil c []

theorem on_execute_image {b : ImageBuild String} (htask : s.work.task = .image (.ok b.toValues)) :
    (s.execute j root).on h = s.probedEnd j h dockerProbe (.ok {
      program := .words b.command
      cwd := some root.text
      env := some (h.env.map .text)
      timeout := s.timeout
      reads := true }) := by
  rw [on_execute, course, htask, ← Program.ofValues_texts, ← ImageBuild.command_toValues]
  rfl

theorem startsMain_image {b : ImageBuild String} (htask : s.work.task = .image (.ok b.toValues)) :
    s.StartsMain j root h b.command :=
  startsMain_of_probedEnd (on_execute_image htask) fun c hc => by cases hc; rfl

theorem startsMain_container {r : ContainerRun String} (htask : s.work.task = .container (.ok r.toValues)) :
    s.StartsMain j root h (r.command j.env s.cwd s.run (h.here.resolve root).text) :=
  startsMain_of_probedEnd (on_execute_container s j root h htask) fun _ hc => program_of_containerMain hc

/-- What is shown for an image build, or for a container run with words of its own, is read by a shell as the
words that are started, for a container run behind the image. Both command lines can be made from the table of
the step. -/
theorem shown_command_runs :
    (∀ (name : String) (b : ImageBuild String), b.tags ≠ [] → ∃ s d, Step.build name b = .ok s ∧
      s.work.data = some d ∧ Shell.split s.run = .ok b.command ∧
      (ImageBuild.ofData d).map ImageBuild.command = .ok (b.command.map .text) ∧
      (∀ j root h, s.StartsMain j root h b.command) ∧
      ∀ arguments, b.buildArgs.Alike arguments → ∃ s', Step.build name { b with buildArgs := arguments } = .ok s' ∧
        s'.run = s.run ∧ { b with buildArgs := arguments }.command = b.command) ∧
    ∀ (name : String) (words : List String) (r : ContainerRun String) (cwd : Option String) (timeout : Option Number),
      ∃ s d, s = withWords name words r cwd timeout ∧ s.work.data = some d ∧ Shell.split s.run = .ok words ∧
        ∀ j root h, ∃ before argv, argv = before ++ r.image :: words ∧
          ((ContainerRun.ofData d).map fun v => v.command j.env s.cwd s.run (h.here.resolve root).text) =
            .ok (argv.map .text) ∧
          s.StartsMain j root h argv := by
  refine ⟨fun name b htags => ?_, fun name words r cwd timeout => ?_⟩
  · have hbuild : ∀ arguments, Step.build name { b with buildArgs := arguments } =
        .ok (building name { b with buildArgs := arguments }) := fun arguments =>
      if_neg (by rwa [List.isEmpty_iff])
    refine ⟨building name b, b.toData, hbuild b.buildArgs, rfl, Shell.split_quoteAll b.command, ?_,
      fun j root h => startsMain_image rfl, fun arguments hsame => ?_⟩
    · rw [ImageBuild.ofData_toData]
      exact congrArg Except.ok b.command_toValues
    · have hcommand := ImageBuild.command_congr hsame
      exact ⟨_, hbuild arguments, congrArg Shell.quoteAll hcommand, hcommand⟩
  · let own : ContainerRun String := { r with argv := some words }
    exact ⟨_, own.toData, rfl, rfl, Shell.split_quoteAll words, fun j root h =>
      ⟨_, own.command j.env cwd _ _, rfl, own.command_ofData j.env cwd _ _, startsMain_container rfl⟩⟩

end Step

namespace Sample

/-- A build whose tags and arguments hold blanks and marks. -/
def quoted : ImageBuild String :=
  { ImageBuild.ofTarget "runtime" ["app:it's", "app 2"] with
    buildArgs := ⟨[("USER", .text "$(id)"), ("FLAGS", .text "-O2 -g")]⟩ }

theorem argumentWords_quoted : ImageBuild.argumentWords quoted.buildArgs =
    ["--build-arg", "FLAGS=-O2 -g", "--build-arg", "USER=$(id)"] := by
  simp [ImageBuild.argumentWords, quoted, List.mergeSort, Value.plain]

theorem command_quoted : quoted.command = ["docker", "buildx", "build", "--file", "Dockerfile", "--target", "runtime",
    "--platform", "linux/amd64", "--tag", "app:it's", "--tag", "app 2", "--build-arg", "FLAGS=-O2 -g", "--build-arg",
    "USER=$(id)", "--load", "."] := by
  rw [ImageBuild.command, argumentWords_quoted]
  rfl

end Sample

namespace Step

/-- The arguments come in the order of their names, and each word that is shown is one that is started. -/
theorem shown_command_runs_sample : Sample.quoted.tags ≠ [] ∧ ∃ s k main,
    Step.build "image" Sample.quoted = .ok s ∧
    s.run = "docker buildx build --file Dockerfile --target runtime --platform linux/amd64 --tag 'app:it'\"'\"'s' " ++
      "--tag 'app 2' --build-arg 'FLAGS=-O2 -g' --build-arg 'USER=$(id)' --load ." ∧
    Shell.split s.run = .ok Sample.quoted.command ∧
    (s.execute Sample.checks ⟨1, ["src"]⟩).on Sample.confided = (.ok (), k) ∧
    k.started = [{ program := .words ["docker", "--version"] }, main] ∧
    main.program = .words Sample.quoted.command := by
  have htags : Sample.quoted.tags ≠ [] := List.cons_ne_nil _ _
  obtain ⟨s, d, hbuild, -, hsplit, -, hstarts, -⟩ := shown_command_runs.1 "image" Sample.quoted htags
  obtain ⟨mains, hstarted, hlength, hmains, hwords⟩ := hstarts Sample.checks ⟨1, ["src"]⟩ Sample.confided
  cases hbuild
  have hnull : Sample.quoted.command.any Text.hasNull = false := by
    rw [Sample.command_quoted]
    decide +kernel
  have hrun : Shell.quoteAll Sample.quoted.command =
      "docker buildx build --file Dockerfile --target runtime --platform linux/amd64 --tag 'app:it'\"'\"'s' " ++
        "--tag 'app 2' --build-arg 'FLAGS=-O2 -g' --build-arg 'USER=$(id)' --load ." := by
    rw [Sample.command_quoted]
    decide +kernel
  have hok : (((building "image" Sample.quoted).execute Sample.checks ⟨1, ["src"]⟩).on Sample.confided).1 = .ok () := by
    rw [on_execute_image rfl, probedEnd_ok _ _ _ rfl, mainEnd, Command.outcome_of_answered]
    · rfl
    · refine Command.refusal?_eq_none ?_ rfl rfl
      rw [Command.hasNull, Program.hasNull, hnull]
      decide
  obtain ⟨main, rfl⟩ := List.length_eq_one_iff.1 (Nat.le_antisymm hlength (List.length_pos_iff.2 (hmains hok)))
  exact ⟨htags, _, _, main, rfl, hrun, hsplit, Prod.ext hok rfl, hstarted,
    hwords main (List.mem_singleton_self main)⟩

end Step

end CiPipeline
