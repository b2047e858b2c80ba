import CiPipeline.Proofs.Release
import CiPipeline.Proofs.Words

/-
The lines of the release pipeline into which texts come from outside: the tag of the ref and the source
directory. `lines_split`: whatever these are, a shell splits the lines into the words that are meant, in
which each text from outside is one word; it can neither add a word nor reach into another one.
-/

namespace CiPipeline

namespace Release

/-! ## The words that are meant -/

/-- The words of making a release of the tag of a ref; for a ref that is no tag it is the empty word. -/
def releaseWords (t : Trigger) : List String :=
  ["gh", "release", "create"] ++ t.tag.getD "" ::
    (["release-assets/*", "--generate-notes"] ++ if t.isPrerelease then ["--prerelease"] else [])

/-- Where the wheels of a target are kept. -/
def artifactDirectory (g : Target) : String := artifacts ++ "/" ++ ImageTag.wheelArtifact g.platform g.arch

/-- The words of building the wheels of a target. -/
def wheelWords (source : String) (g : Target) : List String :=
  ["python", "-m", "build", "--wheel", "--outdir"] ++ [artifactDirectory g, source ++ "/python"]

example : targets.map artifactDirectory =
    [".mlcpipe/artifacts/wheels-linux-x64", ".mlcpipe/artifacts/wheels-windows-x64"] := by decide +kernel

/-- The line of a step, as the words into which a shell splits it, with the platform of the job and the
kind of the step. -/
structure Line where
  platform : Option String
  kind : String
  words : Except Shell.WordsError (List String)

/-- The lines of all steps that have a name. -/
def linesNamed (name : String) (js : List Job) : List Line :=
  js.flatMap fun j => (j.steps.filter (·.name = name)).map fun s => ⟨j.runsOn, s.work.kind, Shell.split s.run⟩

/-- Jobs in which every line with a text from outside is split into the words that are meant. -/
structure Splits (js : List Job) (t : Trigger) (source : String) : Prop where
  release : linesNamed "Create release" js = [⟨none, "shell", .ok (releaseWords t)⟩]
  wheels : linesNamed "Build wheel" js = targets.map fun g => ⟨some g.platform, "shell", .ok (wheelWords source g)⟩

/-! ## The lines in pieces -/

theorem releaseLine_eq (t : Trigger) : releaseLine t = Text.join " " (["gh", "release", "create"] ++
    Shell.quote (t.tag.getD "") ::
      (["release-assets/*", "--generate-notes"] ++ if t.isPrerelease then ["--prerelease"] else [])) := by
  unfold releaseLine
  rw [← String.toList_inj]
  cases t.isPrerelease <;> simp [Text.join]

theorem wheelLine_eq (u : Surroundings) (g : Target) : wheelLine u g = Text.join " "
    (["python", "-m", "build", "--wheel", "--outdir"] ++
      [Shell.quote (artifactDirectory g), Shell.quote (u.source ++ "/python")]) := by
  unfold wheelLine artifactDirectory
  rw [← String.toList_inj]
  simp [Text.join]

theorem split_releaseLine (t : Trigger) : Shell.split (releaseLine t) = .ok (releaseWords t) := by
  have hbefore : List.Forall₂ Shell.Spells ["gh", "release", "create"] ["gh", "release", "create"] :=
    Shell.spells_all (by decide +kernel)
  have hbehind : (["release-assets/*", "--generate-notes"] ++ if t.isPrerelease then ["--prerelease"] else []).all
      Shell.isPlain = true := by
    cases t.isPrerelease <;> decide +kernel
  rw [releaseLine_eq]
  exact Shell.split_join (List.rel_append hbefore (.cons (Shell.spells_quote _) (Shell.spells_all hbehind)))

theorem split_wheelLine (u : Surroundings) (g : Target) :
    Shell.split (wheelLine u g) = .ok (wheelWords u.source g) := by
  have hbefore : List.Forall₂ Shell.Spells ["python", "-m", "build", "--wheel", "--outdir"]
      ["python", "-m", "build", "--wheel", "--outdir"] :=
    Shell.spells_all (by decide +kernel)
  rw [wheelLine_eq]
  exact Shell.split_join (List.rel_append hbefore (.cons (Shell.spells_quote _) (.cons (Shell.spells_quote _) .nil)))

/-! ## All lines of the pipeline -/

theorem jobs_split (u : Surroundings) (t : Trigger) (tags : Tags) : Splits (jobs u t tags) t u.source := by
  have hrelease : linesNamed "Create release" (jobs u t tags) = [⟨none, "shell", Shell.split (releaseLine t)⟩] := rfl
  have hwheels : linesNamed "Build wheel" (jobs u t tags) =
      targets.map fun g => ⟨some g.platform, "shell", Shell.split (wheelLine u g)⟩ := rfl
  constructor
  · rw [hrelease, split_releaseLine]
  · rw [hwheels]
    simp only [split_wheelLine]

/-- The images have tags unless a number in the ref has too many digits. -/
theorem of_eq_error {u : Surroundings} {t : Trigger} {e : Text.TooManyDigits} (h : Tags.of u t = .error e) :
    t.pullRequest = .error e ∨ ImageTag.version t = .error e := by
  cases hpull : t.pullRequest with
  | error e' =>
    rw [Tags.of, ImageTag.development, hpull] at h
    cases h
    exact .inl rfl
  | ok pull =>
    cases hversion : ImageTag.version t with
    | error e' =>
      rw [Tags.of, ImageTag.development, hpull, hversion] at h
      cases h
      exact .inr rfl
    | ok v =>
      rw [Tags.of, ImageTag.development, ImageTag.production, hpull, hversion] at h
      cases h

/-- Whatever the trigger is, and whatever the source directory is called, a shell splits the lines of the pipeline
into the words that are meant. A pipeline without these lines comes of a ref only in which a number has too many
digits. -/
theorem lines_split (s : Settings) (env : Dict String) (t : Trigger) :
    (∃ js, file.load s env >>= Definitions.given (some t) = .ok (some js) ∧
      Splits js t ((env.get? "MLC_LLM_SOURCE_DIR").getD "mlc-llm")) ∨
    ∃ e, file.load s env >>= Definitions.given (some t) = .error (.digits e) ∧
      (t.pullRequest = .error e ∨ ImageTag.version t = .error e) := by
  have hload : file.load s env >>= Definitions.given (some t) =
      ((pipeline (.of s env) t).mapError Fault.digits).map some := rfl
  rw [hload, pipeline]
  cases htags : Tags.of (.of s env) t with
  | ok tags => exact .inl ⟨_, rfl, jobs_split (.of s env) t tags⟩
  | error e => exact .inr ⟨e, rfl, of_eq_error htags⟩

end Release

namespace Sample

/-- A push of a tag that would start another command. -/
def hostileTag : Trigger := ⟨"refs/tags/v1; rm -rf $HOME '", "push", none, "main", false, by rfl, by decide⟩

end Sample

namespace Release

/-- Of a tag that is written as commands one word is made. -/
example : Shell.split (releaseLine Sample.hostileTag) =
    .ok ["gh", "release", "create", "v1; rm -rf $HOME '", "release-assets/*", "--generate-notes"] := by rfl

end Release

end CiPipeline
