import CiPipeline.Proofs.Command
import CiPipeline.Toolchain
import Mathlib.Data.List.TakeWhile

/-
What comes of asking a program for its version, and of checking the tools of a build. A program that
cannot be run, or takes too long, says nothing; that its output cannot be read, or that it is interrupted, is
not dealt with. The check of the tools ends with an error if one is not on the search path, and else as the
version of the tool that has to have one decides.
-/

namespace CiPipeline

namespace Toolchain

/-- The command that asks a program for its version. -/
def versionAsk (program : String) : Command :=
  { program := .words [program, "--version"], timeout := some (.int 30), reads := true }

/-- What comes of asking a program for its version on a host: the first line of what it says, if it says anything. -/
def said (h : Host) (program : String) : Except Fault (Option String) :=
  ((versionAsk program).attempted h).map (·.bind versionLineOf)

theorem on_versionLine (program : String) (h : Host) :
    (versionLine program).on h = (said h program, (versionAsk program).left h) :=
  Command.on_tried (versionAsk program) versionLineOf h

theorem refusal?_versionAsk {program : String} (hname : Text.hasNull program = false) (h : Host) :
    (versionAsk program).refusal? h = none :=
  Command.refusal?_words (by simp only [List.any_cons, hname]; decide) h

theorem outcome_versionAsk {program : String} (hname : Text.hasNull program = false) (h : Host) :
    (versionAsk program).outcome h = (versionAsk program).ending (h.respond h.answered (versionAsk program)) :=
  Command.outcome_of_answered (refusal?_versionAsk hname h)

theorem said_of_ended {h : Host} {program out err : String} {code : Int} {files : List (String × String)}
    (hname : Text.hasNull program = false)
    (hreply : h.respond h.answered (versionAsk program) = .ended code out err files) :
    said h program = .ok (versionLineOf ⟨code, out, err⟩) := by
  rw [said, Command.attempted, outcome_versionAsk hname, hreply]
  rfl

theorem said_of_garbled {h : Host} {program why : String} {code : Int} {files : List (String × String)}
    (hname : Text.hasNull program = false)
    (hreply : h.respond h.answered (versionAsk program) = .garbled code why files) :
    said h program = .error (.undecodable why) := by
  rw [said, Command.attempted, outcome_versionAsk hname, hreply]
  rfl

/-- The fault of asking a program for its version: what it prints cannot be read, or it has a name that no
program can have. -/
inductive Unread (h : Host) (program : String) : Fault → Prop
  | garbled {code : Int} {why : String} {files : List (String × String)} (hname : Text.hasNull program = false)
      (hreply : h.respond h.answered (versionAsk program) = .garbled code why files) :
      Unread h program (.undecodable why)
  | null (hname : Text.hasNull program = true) : Unread h program .nullInPath

theorem hasNull_versionAsk (program : String) : (versionAsk program).hasNull = Text.hasNull program := by
  have hoption : Text.hasNull "--version" = false := by decide
  simp [versionAsk, Command.hasNull, Program.hasNull, hoption]

/-- Without interruptions, asking a program for its version ends with a fault in two cases only. -/
theorem said_eq_error_iff {h : Host} (hcalm : h.Calm) (program : String) (f : Fault) :
    said h program = .error f ↔ Unread h program f := by
  constructor
  · intro hsaid
    have houtcome : (versionAsk program).outcome h = .error f ∧ (f.isOs || f.isTimeout) = false := by
      unfold said Command.attempted at hsaid
      cases houtcome : (versionAsk program).outcome h with
      | ok e => rw [houtcome] at hsaid; cases hsaid
      | error g =>
        rw [houtcome] at hsaid
        cases hkind : g.isOs || g.isTimeout with
        | true => simp [hkind, Except.map] at hsaid
        | false =>
          simp only [hkind, Except.map] at hsaid
          cases hsaid
          exact ⟨rfl, hkind⟩
    obtain ⟨houtcome, hkind⟩ := houtcome
    cases Command.fails_of_outcome houtcome with
    | refused e about => cases e <;> cases hkind
    | null hnull => exact .null ((hasNull_versionAsk program).symm.trans hnull)
    | noWord hword => cases hword
    | unawaited hwait => cases hwait
    | unread _ hreply =>
      cases hname : Text.hasNull program with
      | false => exact .garbled hname hreply
      | true =>
        rw [Command.outcome, Command.refusal?, hasNull_versionAsk, hname] at houtcome
        cases houtcome
    | overran => cases hkind
    | interrupted hreply => exact absurd hreply (hcalm _ _)
  · rintro (⟨hname, hreply⟩ | hname)
    · exact said_of_garbled hname hreply
    · rw [said, Command.attempted, Command.outcome, Command.refusal?, hasNull_versionAsk, hname]
      rfl

/-- A single line without blanks around it is what a program that prints it says. -/
theorem versionLineOf_line {cs : List Char} (hne : cs ≠ []) (hhead : ∀ c, cs.head? = some c → Text.isBlank c = false)
    (hlast : ∀ c, cs.getLast? = some c → Text.isBlank c = false) (hline : ∀ c ∈ cs, Text.isLineEnd c = false)
    (code : Int) (err : String) : versionLineOf ⟨code, String.ofList cs, err⟩ = some (String.ofList cs) := by
  have hempty : String.ofList cs ≠ "" := by
    intro h
    exact hne (String.ofList_injective (h.trans String.ofList_nil.symm))
  have hstrip : Text.strip (String.ofList cs) = String.ofList cs := by
    rw [Text.strip, String.toList_ofList, Text.trimBy, Text.dropWhile_eq_self hhead]
    rw [Text.dropWhile_eq_self (by rwa [List.head?_reverse]), List.reverse_reverse]
  have hfirst : Text.firstLine (String.ofList cs) = String.ofList cs := by
    rw [Text.firstLine, String.toList_ofList, List.takeWhile_eq_self_iff.2 fun c hc => by rw [hline c hc]; rfl]
  rw [versionLineOf]
  simp only [if_neg hempty, hstrip, hfirst]

/-- The version number in what a program says; there is none if it says nothing. -/
def versionIn (line : Option String) : Except Text.TooManyDigits (Option Version) := line.elim (.ok none) Version.parse

/-- What comes of asking a program for its version number. -/
theorem on_version (program : String) (h : Host) : (version program).on h =
    ((said h program).bind fun line => (versionIn line).mapError .digits, (versionAsk program).left h) := by
  have hasked := on_versionLine program h
  rw [version]
  cases hsaid : said h program with
  | error f =>
    rw [hsaid] at hasked
    exact Act.on_bind_error hasked
  | ok line =>
    rw [hsaid] at hasked
    rw [Act.on_bind_ok hasked]
    cases line with
    | none => rfl
    | some line => exact Act.on_ofExcept _ _ _

/-! ## The check of the tools -/

/-- Whether what a program says about its version reaches what is required; it does not if it says none. -/
def meets (least : String) (line : Option String) : Except Fault Bool := do
  match ← (versionIn line).mapError Fault.digits with
  | none => return false
  | some found => Version.reaches found.parts least

theorem meets_of_error {least : String} {line : Option String} {e : Text.TooManyDigits}
    (he : versionIn line = .error e) : meets least line = .error (.digits e) := by
  rw [meets, he]
  rfl

theorem meets_of_none {least : String} {line : Option String} (hnone : versionIn line = .ok none) :
    meets least line = .ok false := by
  rw [meets, hnone]
  rfl

theorem meets_of_some {least : String} {line : Option String} {found : Version}
    (hsome : versionIn line = .ok (some found)) : meets least line = Version.reaches found.parts least := by
  rw [meets, hsome]
  rfl

variable {h : Host} {tools leasts : Dict String}

/-- Whether what a program says when it is asked for its version reaches what is required. -/
def satisfies (h : Host) (program least : String) : Except Fault Bool := (said h program).bind (meets least)

theorem satisfies_of_said {program : String} {line : Option String} (hsaid : said h program = .ok line)
    (least : String) : satisfies h program least = meets least line := by
  rw [satisfies, hsaid]
  rfl

theorem satisfies_of_error {program : String} {f : Fault} (hsaid : said h program = .error f) (least : String) :
    satisfies h program least = .error f := by
  rw [satisfies, hsaid]
  rfl

/-- What comes of checking a version: an error about the tool unless what the program says reaches what
is required, and the fault if that cannot be told. -/
theorem on_checkVersion (name program least : String) (h : Host) : ∃ e : PipelineError,
    e.sort = .tools [name] ∧ (checkVersion name program least).on h =
      ((satisfies h program least).bind fun ok => if ok then .ok () else .error (.pipeline e),
        (versionAsk program).left h) := by
  have hversion := on_version program h
  cases hsaid : said h program with
  | error f =>
    rw [hsaid] at hversion
    refine ⟨unreadableError name least, rfl, ?_⟩
    rw [checkVersion, Act.on_bind_error hversion, satisfies_of_error hsaid]
    rfl
  | ok line =>
    rw [hsaid] at hversion
    rw [satisfies_of_said hsaid]
    cases hfound : versionIn line with
    | error e =>
      have hversion : (version program).on h = (.error (.digits e), (versionAsk program).left h) := by
        rw [hversion, Except.bind, hfound]
        rfl
      refine ⟨unreadableError name least, rfl, ?_⟩
      rw [checkVersion, Act.on_bind_error hversion, meets_of_error hfound]
      rfl
    | ok found =>
      have hversion : (version program).on h = (.ok found, (versionAsk program).left h) := by
        rw [hversion, Except.bind, hfound]
        rfl
      cases found with
      | none =>
        refine ⟨unreadableError name least, rfl, ?_⟩
        rw [checkVersion, Act.on_bind_ok hversion, meets_of_none hfound]
        rfl
      | some found =>
        refine ⟨oldError name program least found, rfl, ?_⟩
        rw [checkVersion, Act.on_bind_ok hversion, meets_of_some hfound]
        simp only
        cases Version.reaches found.parts least with
        | error f => rfl
        | ok reached => cases reached <;> rfl

theorem missing_eq_nil_iff {tools : Dict String} :
    missing h tools = [] ↔ ∀ tool ∈ tools.entries, h.finds tool.2 = true := by
  unfold missing
  rw [List.map_eq_nil_iff, List.filter_eq_nil_iff]
  simp

/-- When a tool is missing, the check ends with the error about missing tools. -/
theorem on_check_of_missing (hmissing : missing h tools ≠ []) :
    (check tools leasts).on h = (.error (.pipeline (missingError tools (missing h tools))), h) := by
  rw [check, Act.on_bind_ok (Act.on_get h), if_pos hmissing]
  rfl

/-- Checks the version of a tool that has to have one. -/
def checkLeast (tools : Dict String) (entry : String × String) : Act Unit :=
  match tools.get? entry.1 with
  | some program => checkVersion entry.1 program entry.2
  | none => pure ()

/-- When no tool is missing, the check is that of the version of the tool that has to have one. -/
theorem on_check_of_found {name program : String} (hfound : missing h tools = []) (least : String)
    (htool : tools.get? name = some program) :
    (check tools ⟨[(name, least)]⟩).on h = (checkVersion name program least).on h := by
  have hone : [(name, least)].forM (checkLeast tools) = checkVersion name program least := by
    simp [checkLeast, htool]
  rw [check, Act.on_bind_ok (Act.on_get h), hfound]
  exact congrArg (Act.on · h) hone

end Toolchain

end CiPipeline
