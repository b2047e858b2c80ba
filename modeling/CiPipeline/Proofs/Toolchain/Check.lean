import CiPipeline.Proofs.Toolchain
import CiPipeline.Proofs.Version.Search

/-
What the check of the tools decides. Missing programs are all named before anything is started. Otherwise the
tools that have to have a version are asked one after another, each on the host that the questions before it have
left, and the first that does not show a sufficient one ends the check (`check_decides`): with an error about that
tool; or, if what it prints is no text, or the version number that it shows has too many digits, with the fault of
reading that.
-/

namespace CiPipeline

namespace Version

/-- The version is at most the other one: the first number in which they differ decides. -/
def AtMost (v w : Version) : Prop :=
  v.major < w.major ∨ v.major = w.major ∧ (v.minor < w.minor ∨ v.minor = w.minor ∧ v.patch ≤ w.patch)

instance (v w : Version) : Decidable (v.AtMost w) := by
  unfold AtMost
  infer_instance

/-- A requirement that shows a version number is reached by those that are at least that one. -/
theorem reaches_of_parse {required : Version} {least : String} (h : parse least = .ok (some required))
    (found : Version) : reaches found.parts least = .ok (decide (required.AtMost found)) := by
  have hlex : (!found.parts.lex required.parts (· < ·)) = decide (required.AtMost found) := by
    rw [Bool.eq_iff_iff, decide_eq_true_eq, AtMost]
    simp only [parts, List.lex, Bool.not_eq_true', Bool.or_eq_false_iff, Bool.and_eq_false_iff, decide_eq_false_iff_not,
      beq_eq_false_iff_ne, ne_eq, Int.ofNat_lt, Int.ofNat_inj, or_true, and_true]
    omega
  rw [reaches, h, ← hlex]
  rfl

end Version

namespace Toolchain

/-! ## One tool -/

/-- A program shows a version number, and that is at least the required one. -/
def Suffices (h : Host) (program : String) (required : Version) : Prop :=
  ∃ line v, said h program = .ok (some line) ∧ Version.Shows line v ∧ required.AtMost v

/-- A program shows a version number with too many digits. -/
def Swollen (h : Host) (program : String) : Prop :=
  ∃ line, said h program = .ok (some line) ∧ Version.ShowsOverlong line

variable {h : Host} {tools leasts : Dict String} {name program least : String} {required : Version}

theorem satisfies_of_swollen (hswollen : Swollen h program) (least : String) :
    ∃ e, satisfies h program least = .error (.digits e) := by
  obtain ⟨line, hline, hlong⟩ := hswollen
  obtain ⟨e, he⟩ := Version.parse_of_showsOverlong hlong
  refine ⟨e, ?_⟩
  rw [satisfies_of_said hline]
  exact meets_of_error (show versionIn (some line) = .error e from he)

theorem satisfies_eq_decide (hread : ∀ f, said h program ≠ .error f) (hswollen : ¬ Swollen h program)
    (hleast : Version.parse least = .ok (some required)) :
    ∃ ok : Bool, satisfies h program least = .ok ok ∧ (ok = true ↔ Suffices h program required) := by
  rcases hsaid : said h program with f | _ | line
  · exact absurd hsaid (hread f)
  · refine ⟨false, (satisfies_of_said hsaid least).trans (meets_of_none rfl), iff_of_false nofun ?_⟩
    rintro ⟨line, v, hline, -⟩
    cases hsaid.symm.trans hline
  · have hshort : ¬ Version.ShowsOverlong line := fun hlong => hswollen ⟨line, hsaid, hlong⟩
    have hsuffices : Suffices h program required ↔ ∃ v, Version.Shows line v ∧ required.AtMost v := by
      unfold Suffices
      rw [hsaid]
      simp
    rw [satisfies_of_said hsaid]
    rcases Version.parse_of_not_showsOverlong hshort with ⟨hnone, hno⟩ | ⟨v, hsome, hshows⟩
    · refine ⟨false, meets_of_none (show versionIn (some line) = .ok none from hnone), iff_of_false nofun ?_⟩
      rw [hsuffices]
      rintro ⟨v, hv, -⟩
      exact hno v hv
    · refine ⟨_, (meets_of_some (show versionIn (some line) = .ok (some v) from hsome)).trans
        (Version.reaches_of_parse hleast v), ?_⟩
      rw [decide_eq_true_eq, hsuffices]
      constructor
      · exact fun hv => ⟨v, hshows, hv⟩
      · rintro ⟨v', hshows', hv'⟩
        -- a text shows one version number only
        have hsame := (Version.parse_of_shows hshows' hshort).symm.trans hsome
        cases hsame
        exact hv'

/-! ## The tools in turn -/

/-- The host when a tool that has to have a version has been asked for it; only those that are among the tools are. -/
def inquired (tools : Dict String) (h : Host) (entry : String × String) : Host :=
  match tools.get? entry.1 with
  | some program => (versionAsk program).left h
  | none => h

/-- The host when several tools have been asked for their versions in turn. -/
def inquiredAll (tools : Dict String) (h : Host) (entries : List (String × String)) : Host :=
  entries.foldl (inquired tools) h

/-- If it is among the tools, a tool that has to have a version shows one that can be read and suffices. -/
def Met (tools : Dict String) (h : Host) (entry : String × String) : Prop :=
  ∀ program required, tools.get? entry.1 = some program → Version.parse entry.2 = .ok (some required) →
    ¬ Swollen h program ∧ Suffices h program required

/-- Each of the tools that have to have a version meets that when those before it have been asked. -/
def AllMet (tools : Dict String) : Host → List (String × String) → Prop
  | _, [] => True
  | h, entry :: rest => Met tools h entry ∧ AllMet tools (inquired tools h entry) rest

/-- The fault with which a check of a tool ends that does not show a sufficient version on a host. -/
inductive Blames (h : Host) (name program : String) (required : Version) : Fault → Prop
  | unread {f : Fault} (hf : Unread h program f) : Blames h name program required f
  | swollen {e : Text.TooManyDigits} (hswollen : Swollen h program) : Blames h name program required (.digits e)
  | insufficient {e : PipelineError} (hread : ∀ f, ¬ Unread h program f) (hshort : ¬ Swollen h program)
      (hno : ¬ Suffices h program required) (hsort : e.sort = .tools [name]) :
      Blames h name program required (.pipeline e)

/-- Each of some requirements shows a version number. -/
def Readable (entries : List (String × String)) : Prop :=
  ∀ entry ∈ entries, ∃ required, Version.parse entry.2 = .ok (some required)

theorem on_checkLeast_none (hnone : tools.get? name = none) (least : String) :
    (checkLeast tools (name, least)).on h = (.ok (), inquired tools h (name, least)) := by
  rw [checkLeast, inquired, hnone]
  rfl

theorem on_checkLeast_some (htool : tools.get? name = some program) (least : String) (h : Host) :
    ∃ e : PipelineError, e.sort = .tools [name] ∧ (checkLeast tools (name, least)).on h =
      ((satisfies h program least).bind fun ok => if ok then .ok () else .error (.pipeline e),
        inquired tools h (name, least)) := by
  rw [checkLeast, inquired, htool]
  exact on_checkVersion name program least h

theorem met_iff (htool : tools.get? name = some program) (hleast : Version.parse least = .ok (some required)) :
    Met tools h (name, least) ↔ ¬ Swollen h program ∧ Suffices h program required := by
  constructor
  · exact fun hmet => hmet program required htool hleast
  · rintro hboth program' required' htool' hleast'
    cases htool.symm.trans htool'
    cases hleast.symm.trans hleast'
    exact hboth

/-- What comes of the check of one tool that has to have a version: it is met, or the fault says why not. -/
theorem on_checkLeast (tools : Dict String) (hcalm : h.Calm) (name : String)
    (hleast : Version.parse least = .ok (some required)) :
    Met tools h (name, least) ∧ (checkLeast tools (name, least)).on h = (.ok (), inquired tools h (name, least)) ∨
    ∃ program f, tools.get? name = some program ∧ ¬ Met tools h (name, least) ∧ Blames h name program required f ∧
      (checkLeast tools (name, least)).on h = (.error f, inquired tools h (name, least)) := by
  cases htool : tools.get? name with
  | none =>
    refine .inl ⟨fun program required hsome => ?_, on_checkLeast_none htool least⟩
    rw [htool] at hsome
    cases hsome
  | some program =>
    obtain ⟨e, hsort, hon⟩ := on_checkLeast_some htool least h
    have hmet := met_iff (h := h) htool hleast
    by_cases hread : ∀ f, said h program ≠ .error f
    · by_cases hswollen : Swollen h program
      · obtain ⟨d, hd⟩ := satisfies_of_swollen hswollen least
        rw [hd] at hon
        exact .inr ⟨program, .digits d, rfl, fun h' => (hmet.1 h').1 hswollen, .swollen hswollen, hon⟩
      · obtain ⟨ok, hok, hsuffices⟩ := satisfies_eq_decide hread hswollen hleast
        rw [hok] at hon
        cases ok with
        | true => exact .inl ⟨hmet.2 ⟨hswollen, hsuffices.1 rfl⟩, hon⟩
        | false =>
          have hno : ¬ Suffices h program required := fun h' => Bool.false_ne_true (hsuffices.2 h')
          have hunread : ∀ f, ¬ Unread h program f := fun f hf => hread f ((said_eq_error_iff hcalm program f).2 hf)
          exact .inr ⟨program, .pipeline e, rfl, fun h' => hno (hmet.1 h').2,
            .insufficient hunread hswollen hno hsort, hon⟩
    · obtain ⟨f, hf⟩ := not_forall_not.1 hread
      rw [satisfies_of_error hf] at hon
      refine .inr ⟨program, f, rfl, fun h' => ?_, .unread ((said_eq_error_iff hcalm program f).1 hf), hon⟩
      obtain ⟨line, v, hline, -⟩ := (hmet.1 h').2
      cases hf.symm.trans hline

theorem calm_inquired (hcalm : h.Calm) (entry : String × String) : (inquired tools h entry).Calm := by
  unfold inquired
  split
  · exact hcalm.congr (Host.frame_left _ _)
  · exact hcalm

theorem on_forM_met : ∀ {entries : List (String × String)} {h : Host}, h.Calm → Readable entries →
    AllMet tools h entries → (entries.forM (checkLeast tools)).on h = (.ok (), inquiredAll tools h entries)
  | [], _, _, _, _ => rfl
  | (name, least) :: rest, h, hcalm, hread, hall => by
    obtain ⟨required, hleast⟩ := hread _ (List.mem_cons_self ..)
    rcases on_checkLeast tools hcalm name hleast with ⟨-, hon⟩ | ⟨program, f, -, hno, -⟩
    · refine (Act.on_bind_ok hon).trans ?_
      exact on_forM_met (calm_inquired hcalm _) (fun e he => hread e (List.mem_cons_of_mem _ he)) hall.2
    · exact absurd hall.1 hno

/-- The first tool that does not show a sufficient version ends the check. -/
theorem on_forM_unmet : ∀ {entries : List (String × String)} {h : Host}, h.Calm → Readable entries →
    ¬ AllMet tools h entries → ∃ before name least after program required f,
      entries = before ++ (name, least) :: after ∧ AllMet tools h before ∧ tools.get? name = some program ∧
      Version.parse least = .ok (some required) ∧ Blames (inquiredAll tools h before) name program required f ∧
      (entries.forM (checkLeast tools)).on h = (.error f, inquiredAll tools h (before ++ [(name, least)]))
  | [], _, _, _, hall => absurd trivial hall
  | (name, least) :: rest, h, hcalm, hread, hall => by
    obtain ⟨required, hleast⟩ := hread _ (List.mem_cons_self ..)
    rcases on_checkLeast tools hcalm name hleast with ⟨hmet, hon⟩ | ⟨program, f, htool, -, hblames, hon⟩
    · obtain ⟨before, name', least', after, program, required', f, rfl, hbefore, htool, hleast', hblames, hrest⟩ :=
        on_forM_unmet (calm_inquired hcalm _) (fun e he => hread e (List.mem_cons_of_mem _ he)) fun hall' =>
          hall ⟨hmet, hall'⟩
      exact ⟨(name, least) :: before, name', least', after, program, required', f, rfl, ⟨hmet, hbefore⟩, htool, hleast',
        hblames, (Act.on_bind_ok hon).trans hrest⟩
    · exact ⟨[], name, least, rest, program, required, f, rfl, trivial, htool, hleast, hblames, Act.on_bind_error hon⟩

/-! ## The whole check -/

theorem on_check_of_none_missing (hfound : missing h tools = []) :
    (check tools leasts).on h = (leasts.entries.forM (checkLeast tools)).on h := by
  rw [check, Act.on_bind_ok (Act.on_get h), hfound]
  rfl

/-- What the check of the tools of a build comes to. If programs are missing, it ends with an error that names
exactly their tools, in order, and nothing has been started. Otherwise it ends without a fault exactly if each of
the tools that have to have a version shows one that can be read and is at least that; and if it ends with a fault,
that is about the first of them that does not: an error that names this tool, or the fault of reading what it
prints, which is the case if that is no text, or if the version number that it shows has too many digits. The tools
up to this one have been asked in turn, and nothing else was started. -/
theorem check_decides (hcalm : h.Calm) (hread : Readable leasts.entries) :
    ((∃ tool ∈ tools.entries, h.finds tool.2 = false) → ∃ e : PipelineError,
      e.sort = .tools ((tools.entries.filter fun tool => !h.finds tool.2).map (·.1)) ∧
      (check tools leasts).on h = (.error (.pipeline e), h)) ∧
    (∀ k, (check tools leasts).on h = (.ok (), k) ↔
      ((∀ tool ∈ tools.entries, h.finds tool.2 = true) ∧ AllMet tools h leasts.entries) ∧
        k = inquiredAll tools h leasts.entries) ∧
    ∀ f k, (∀ tool ∈ tools.entries, h.finds tool.2 = true) → (check tools leasts).on h = (.error f, k) →
      ∃ before name least after program required, leasts.entries = before ++ (name, least) :: after ∧
        AllMet tools h before ∧ tools.get? name = some program ∧ Version.parse least = .ok (some required) ∧
        Blames (inquiredAll tools h before) name program required f ∧
        k = inquiredAll tools h (before ++ [(name, least)]) := by
  refine ⟨fun hsome => ?_, fun k => ⟨fun hon => ?_, ?_⟩, fun f k hfound hon => ?_⟩
  · have hmissing : missing h tools ≠ [] := by
      obtain ⟨tool, htool, hno⟩ := hsome
      intro hnil
      exact Bool.false_ne_true (hno.symm.trans (missing_eq_nil_iff.1 hnil tool htool))
    exact ⟨missingError tools (missing h tools), rfl, on_check_of_missing hmissing⟩
  · by_cases hfound : missing h tools = []
    · rw [on_check_of_none_missing hfound] at hon
      by_cases hall : AllMet tools h leasts.entries
      · exact ⟨⟨missing_eq_nil_iff.1 hfound, hall⟩, congrArg Prod.snd (hon.symm.trans (on_forM_met hcalm hread hall))⟩
      · obtain ⟨before, name, least, after, program, required, f, -, -, -, -, -, hfault⟩ :=
          on_forM_unmet hcalm hread hall
        cases hon.symm.trans hfault
    · cases hon.symm.trans (on_check_of_missing hfound)
  · rintro ⟨⟨hfound, hall⟩, rfl⟩
    rw [on_check_of_none_missing (missing_eq_nil_iff.2 hfound)]
    exact on_forM_met hcalm hread hall
  · rw [on_check_of_none_missing (missing_eq_nil_iff.2 hfound)] at hon
    by_cases hall : AllMet tools h leasts.entries
    · cases hon.symm.trans (on_forM_met hcalm hread hall)
    · obtain ⟨before, name, least, after, program, required, f', hsplit, hbefore, htool, hleast, hblames, hfault⟩ :=
        on_forM_unmet hcalm hread hall
      cases hon.symm.trans hfault
      exact ⟨before, name, least, after, program, required, hsplit, hbefore, htool, hleast, hblames, rfl⟩

end Toolchain

namespace Sample

/-- A host with two tools, whose programs print a version number, and another one on the next line. -/
def chatty : Host where
  here := ⟨1, []⟩
  clock := ⟨2024, 1, 1, 0, 0, 0⟩
  settings := ⟨"", "", "", "main", 60⟩
  onPath := ["cmake", "rustc"]
  respond := fun _ _ => .ended 0 "cmake version 3.25.1\nsuite 0.1\n" "" []

/-- A host with one tool, whose version number has so many zeros in front. -/
def padded (zeros : Nat) : Host where
  here := ⟨1, []⟩
  clock := ⟨2024, 1, 1, 0, 0, 0⟩
  settings := ⟨"", "", "", "main", 60⟩
  onPath := ["cmake"]
  respond := fun _ _ => .ended 0 (String.ofList (seven zeros ++ ['.', '1'])) "" []

theorem versionLineOf_padded (zeros : Nat) :
    Toolchain.versionLineOf ⟨0, String.ofList (seven zeros ++ ['.', '1']), ""⟩ =
      some (String.ofList (seven zeros ++ ['.', '1'])) := by
  have hblank : ∀ c ∈ seven zeros ++ ['.', '1'], Text.isBlank c = false := by
    intro c hc
    simp only [seven, List.mem_append, List.mem_replicate, List.mem_cons, List.not_mem_nil, or_false] at hc
    rcases hc with (⟨-, rfl⟩ | rfl) | rfl | rfl <;> decide
  refine Toolchain.versionLineOf_line (by simp) (fun c hc => hblank c (List.mem_of_head? hc))
    (fun c hc => hblank c (List.mem_of_getLast? hc)) (fun c hc => ?_) 0 ""
  rw [Bool.eq_false_iff]
  exact fun hend => Bool.false_ne_true ((hblank c hc).symm.trans (Text.isBlank_of_isLineEnd hend))

end Sample

namespace Toolchain

/-- A tool that is required but not among the tools is passed over, the other one suffices. -/
theorem check_decides_sample :
    (∀ tool ∈ [("cmake", "cmake"), ("rust", "rustc")], Sample.chatty.finds tool.2 = true) ∧
      (check ⟨[("cmake", "cmake"), ("rust", "rustc")]⟩ ⟨[("ninja", "1.10"), ("cmake", "3.24.0")]⟩).on Sample.chatty =
        (.ok (), (versionAsk "cmake").left Sample.chatty) := by
  have hcalm : Sample.chatty.Calm := nofun
  have hread : Readable [("ninja", "1.10"), ("cmake", "3.24.0")] := by
    intro entry hentry
    simp only [List.mem_cons, List.not_mem_nil, or_false] at hentry
    rcases hentry with rfl | rfl
    · exact ⟨⟨1, 10, 0⟩, rfl⟩
    · exact ⟨⟨3, 24, 0⟩, rfl⟩
  have hsaid : said Sample.chatty "cmake" = .ok (some "cmake version 3.25.1") := rfl
  have hfirst : Version.StandsFirst "cmake version 3.25.1".toList "cmake version ".toList ['3'] "25.1".toList := by
    have hbegins : Version.Begins "3.25.1".toList ['3'] "25.1".toList :=
      ⟨by decide, by decide, List.all_eq_true.1 (by decide), '2', by decide, by decide⟩
    exact Version.standsFirst_of_atStart? ⟨_, by decide, by rintro c ⟨⟩; decide, hbegins⟩ (by decide)
  have hshort : ¬ Swollen Sample.chatty "cmake" := by
    rintro ⟨line, hline, hlong⟩
    cases hsaid.symm.trans hline
    obtain ⟨e, he⟩ := Version.parse_of_showsOverlong hlong
    cases (Version.parse_of_short hfirst (by decide)).symm.trans he
  have hsuffices : Suffices Sample.chatty "cmake" ⟨3, 24, 0⟩ :=
    ⟨_, ⟨3, 25, 1⟩, hsaid, ⟨_, _, _, hfirst, by decide⟩, by decide⟩
  have hall : AllMet ⟨[("cmake", "cmake"), ("rust", "rustc")]⟩ Sample.chatty
      [("ninja", "1.10"), ("cmake", "3.24.0")] := by
    refine ⟨?_, ?_, trivial⟩
    · rintro program required ⟨⟩
    · rintro program required ⟨⟩ ⟨⟩
      exact ⟨hshort, hsuffices⟩
  exact ⟨by decide, ((check_decides hcalm hread).2.1 _).2 ⟨⟨by decide, hall⟩, rfl⟩⟩

/-- A tool with a sufficient version can end the check with a fault that is no error about tools. -/
theorem sufficient_refused :
    (Sample.padded 4300).Calm ∧ (∀ tool ∈ [("cmake", "cmake")], (Sample.padded 4300).finds tool.2 = true) ∧
      Version.parse "3.24.0" = .ok (some ⟨3, 24, 0⟩) ∧ Suffices (Sample.padded 4300) "cmake" ⟨3, 24, 0⟩ ∧
      ∃ e k, (check ⟨[("cmake", "cmake")]⟩ ⟨[("cmake", "3.24.0")]⟩).on (Sample.padded 4300) =
        (.error (.digits e), k) := by
  have hsaid : said (Sample.padded 4300) "cmake" = .ok (some (String.ofList (Sample.seven 4300 ++ ['.', '1']))) :=
    (said_of_ended (by decide) rfl).trans (congrArg Except.ok (Sample.versionLineOf_padded 4300))
  have hlength : (Sample.seven 4300).length = 4301 := Sample.length_seven 4300
  have hfirst : Version.StandsFirst (String.ofList (Sample.seven 4300 ++ ['.', '1'])).toList []
      (Sample.seven 4300) ['1'] := by
    rw [String.toList_ofList]
    exact Version.standsFirst_head (Version.begins_seven 4300)
  have hswollen : Swollen (Sample.padded 4300) "cmake" :=
    ⟨_, hsaid, _, _, _, hfirst, _, List.mem_cons_self .., by rw [hlength]; decide⟩
  have hsuffices : Suffices (Sample.padded 4300) "cmake" ⟨3, 24, 0⟩ := by
    refine ⟨_, ⟨7, 1, 0⟩, hsaid, ⟨_, _, _, hfirst, ?_⟩, by decide⟩
    rw [Version.valueAt, Sample.digitsValue_seven]
    decide
  have hcalm : (Sample.padded 4300).Calm := by
    intro past c hinterrupted
    cases hinterrupted
  obtain ⟨d, hd⟩ := satisfies_of_swollen hswollen "3.24.0"
  have htool : (⟨[("cmake", "cmake")]⟩ : Dict String).get? "cmake" = some "cmake" := rfl
  obtain ⟨e, -, hon⟩ := on_checkLeast_some htool "3.24.0" (Sample.padded 4300)
  rw [hd] at hon
  have hfound : missing (Sample.padded 4300) ⟨[("cmake", "cmake")]⟩ = [] := by decide
  exact ⟨hcalm, by decide, rfl, hsuffices, d, _, (on_check_of_none_missing hfound).trans (Act.on_bind_error hon)⟩

end Toolchain

end CiPipeline
