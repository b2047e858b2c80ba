import CiPipeline.Proofs.Suite.Counting
import CiPipeline.Proofs.Toolchain
import CiPipeline.Proofs.Version

/-
The two checks of what a build requires. That of a build ends at the first problem; that of the test
suite looks at every tool, also at what those say of which no version is required, and at the graphics driver, and
enters what it finds. Both find a problem in the same cases (`checks_agree`), as long as nothing hinders the second
(`Hinders`): what a tool or the driver prints is no text, one cannot wait for the driver, or a version number
is too long to be read.
-/

namespace CiPipeline

/-- Two hosts have the same programs on their search paths, and these answer in the same way. -/
structure SamePrograms (h k : Host) : Prop where
  onPath : k.onPath = h.onPath
  respond : k.respond = h.respond

/-- What a command comes to depends on its program and the words of it only, and never is an interruption. -/
structure Host.Steady (h : Host) : Prop where
  byProgram : ∀ {past past' : List Command} {c c' : Command}, c.program = c'.program →
    h.respond past c = h.respond past' c'
  runs : ∀ (past : List Command) (c : Command), h.respond past c ≠ .interrupted

namespace SamePrograms

variable {h k : Host}

theorem finds (hk : SamePrograms h k) (program : String) : k.finds program = h.finds program := by
  unfold Host.finds
  rw [hk.onPath]

theorem missing (hk : SamePrograms h k) (tools : Dict String) :
    Toolchain.missing k tools = Toolchain.missing h tools := by
  unfold Toolchain.missing
  simp only [hk.finds]

/-- What comes of a command that is tried in no directory of its own. -/
theorem attempted (hk : SamePrograms h k) (hsteady : h.Steady) (c : Command) (hplace : c.cwd = none) :
    c.attempted k = c.attempted h := by
  have hreply : k.respond k.answered c = h.respond h.answered c := by
    rw [hk.respond]
    exact hsteady.byProgram rfl
  have hrefusal : c.refusal? k = c.refusal? h := by
    rw [Command.refusal?, Command.refusal?, hplace]
    rfl
  rw [Command.attempted, Command.attempted, Command.outcome, Command.outcome, hreply, hrefusal]

theorem said (hk : SamePrograms h k) (hsteady : h.Steady) (program : String) :
    Toolchain.said k program = Toolchain.said h program := by
  rw [Toolchain.said, hk.attempted hsteady _ rfl]
  rfl

theorem of_frame (hframe : k.frame = h.frame) : SamePrograms h k := by
  have hpath : k.frame.onPath = h.frame.onPath := by rw [hframe]
  have hrespond : k.frame.respond = h.frame.respond := by rw [hframe]
  exact ⟨hpath, hrespond⟩

end SamePrograms

/-! ## Acts that enter failures -/

namespace Tally

/-- An act on a tally enters as many failures as said, or ends with the fault, and changes no more of a host than
files and records. -/
def Rejects (h : Host) (n : Except Fault Nat) (f : Tally → Act Tally) : Prop :=
  ∃ r h', Enters f h r h' ∧ r.map Tally.failed = n ∧ h'.frame = h.frame

variable {α : Type} {h h' : Host} {m n : Except Fault Nat} {fault : Fault} {f g : Tally → Act Tally}

theorem rejects_pure (h : Host) : Rejects h (.ok 0) pure := ⟨_, _, enters_pure h, rfl, rfl⟩

theorem rejects_fail (h : Host) (fault : Fault) : Rejects h (.error fault) fun _ => .fail fault :=
  ⟨_, _, enters_fail fault h, rfl, rfl⟩

theorem rejects_enter (h : Host) (o : CheckOutcome) (message : String) :
    Rejects h (.ok (if o = .failed then 1 else 0)) fun t => t.enter o message := by
  refine ⟨_, _, enters_enter o message h, by cases o <;> rfl, ?_⟩
  obtain ⟨events, -, hon⟩ := prints_print o message h
  rw [hon, Host.frame_noting]

theorem rejects_pass (h : Host) (message : String) : Rejects h (.ok 0) fun t => t.pass message :=
  rejects_enter h .passed message

theorem rejects_reject (h : Host) (message : String) : Rejects h (.ok 1) fun t => t.reject message :=
  rejects_enter h .failed message

theorem rejects_skip (h : Host) (message : String) : Rejects h (.ok 0) fun t => t.skip message :=
  rejects_enter h .skipped message

theorem Rejects.after {x : Act α} {a : α} {F : α → Tally → Act Tally} (hx : x.on h = (.ok a, h'))
    (hsame : h'.frame = h.frame) (hF : Rejects h' n (F a)) : Rejects h n fun t => x >>= fun a => F a t := by
  obtain ⟨r, k, hon, hr, hk⟩ := hF
  exact ⟨r, k, hon.after hx, hr, hk.trans hsame⟩

theorem rejects_after_fault {x : Act α} {F : α → Tally → Act Tally} (hx : x.on h = (.error fault, h'))
    (hsame : h'.frame = h.frame) : Rejects h (.error fault) fun t => x >>= fun a => F a t :=
  ⟨_, _, enters_after_fault hx, rfl, hsame⟩

theorem Rejects.bind (hf : Rejects h m f) (hg : ∀ k, k.frame = h.frame → Rejects k n g) :
    Rejects h (m.bind fun a => n.map (a + ·)) fun t => f t >>= g := by
  obtain ⟨r, k, hon, rfl, hk⟩ := hf
  cases r with
  | error fault => exact ⟨_, _, hon.bind_fault, rfl, hk⟩
  | ok d =>
    obtain ⟨q, l, hon', rfl, hl⟩ := hg k hk
    exact ⟨_, _, hon.bind hon', by cases q <;> rfl, hl.trans hk⟩

theorem Rejects.exists_ok {b : Nat} (hf : Rejects h (.ok b) f) (t : Tally) :
    ∃ d h', (f t).on h = (.ok d, h') ∧ d.failed = t.failed + b := by
  obtain ⟨r, k, hon, hr, -⟩ := hf
  cases r with
  | error fault => cases hr
  | ok d =>
    obtain rfl : d.failed = b := Except.ok.inj hr
    exact ⟨t.plus d, k, hon t, rfl⟩

theorem Rejects.eq_error (hf : Rejects h (.error fault) f) (t : Tally) :
    ((f t).on h).1 = .error fault := by
  obtain ⟨r, k, hon, hr, -⟩ := hf
  cases r with
  | error fault' =>
    rw [hon t]
    exact congrArg Except.error (Except.error.inj hr)
  | ok d => cases hr

/-- An act that comes after one that enters no failure. -/
theorem Rejects.then (hf : Rejects h (.ok 0) f) (hg : ∀ k, k.frame = h.frame → Rejects k n g) :
    Rejects h n fun t => f t >>= g := by
  have hboth := hf.bind hg
  have hzero : ((.ok 0 : Except Fault Nat).bind fun a => n.map (a + ·)) = n := by
    cases n with
    | error e => rfl
    | ok b => exact congrArg Except.ok (Nat.zero_add b)
  rwa [hzero] at hboth

/-- How many failures some steps enter that are taken one after another. -/
def counted (q : α → Except Fault Nat) : List α → Except Fault Nat
  | [] => .ok 0
  | a :: l => (q a).bind fun n => (counted q l).map (n + ·)

/-- A loop enters what its steps enter. -/
theorem rejects_foldlM {F : Tally → α → Act Tally} {q : α → Except Fault Nat} :
    ∀ (l : List α) (h : Host), (∀ a ∈ l, ∀ k, k.frame = h.frame → Rejects k (q a) fun t => F t a) →
      Rejects h (counted q l) fun t => l.foldlM F t
  | [], h, _ => rejects_pure h
  | a :: l, h, hF => by
    have hrest : ∀ k, k.frame = h.frame → Rejects k (counted q l) fun t => l.foldlM F t := fun k hk =>
      rejects_foldlM l k fun b hb k' hk' => hF b (List.mem_cons_of_mem _ hb) k' (hk'.trans hk)
    simp only [List.foldlM_cons]
    exact (hF a (List.mem_cons_self ..) h rfl).bind hrest

/-- Either a step ends with a fault, or all of them can be counted. -/
theorem counted_cases {q : α → Except Fault Nat} : ∀ l : List α,
    (∃ f, ∃ a ∈ l, q a = .error f ∧ counted q l = .error f) ∨
      ∃ n, counted q l = .ok n ∧ (∀ a ∈ l, ∃ m, q a = .ok m) ∧ (n = 0 ↔ ∀ a ∈ l, q a = .ok 0)
  | [] => .inr ⟨0, rfl, nofun, iff_of_true rfl nofun⟩
  | a :: l => by
    rw [counted]
    cases ha : q a with
    | error f => exact .inl ⟨f, a, List.mem_cons_self .., ha, rfl⟩
    | ok m =>
      rcases counted_cases l with ⟨f, b, hb, hf, hcounted⟩ | ⟨n, hcounted, hall, hzero⟩
      · rw [hcounted]
        exact .inl ⟨f, b, List.mem_cons_of_mem _ hb, hf, rfl⟩
      · rw [hcounted]
        refine .inr ⟨m + n, rfl, List.forall_mem_cons.2 ⟨⟨m, ha⟩, hall⟩, ?_⟩
        rw [Nat.add_eq_zero_iff, hzero, List.forall_mem_cons, ha, Except.ok.injEq]

end Tally

/-! ## The check of the test suite -/

namespace Category

open Toolchain Tally

variable {h : Host}

/-- How many failures the check of a tool enters: one if it is missing, or if it has to have a version
that it does not reach. -/
def lacks (h : Host) (tool : String × String) : Except Fault Nat :=
  if h.finds tool.2 then
    match leastVersions.get? tool.1 with
    | some least => (satisfies h tool.2 least).map fun ok => if ok then 0 else 1
    | none => (said h tool.2).map fun _ => 0
  else .ok 1

/-- The command that asks for the graphics driver. -/
def driverAsk (h : Host) : Command :=
  { program := .words ["nvidia-smi"], timeout := some (.int h.settings.smokeTimeout), reads := true }

/-- What comes of the check of the graphics driver, which enters no failure. -/
def driven (h : Host) : Except Fault Nat :=
  if h.finds "nvidia-smi" then ((driverAsk h).attempted h).map fun _ => 0 else .ok 0

variable {k : Host}

theorem lacks_congr (hframe : k.frame = h.frame) (hsteady : h.Steady) (tool : String × String) :
    lacks k tool = lacks h tool := by
  have hk : SamePrograms h k := .of_frame hframe
  unfold lacks satisfies
  rw [hk.finds, hk.said hsteady]

theorem driven_congr (hframe : k.frame = h.frame) (hsteady : h.Steady) : driven k = driven h := by
  have hk : SamePrograms h k := .of_frame hframe
  have hsettings : k.frame.settings = h.frame.settings := by rw [hframe]
  have hask : driverAsk k = driverAsk h := by
    rw [driverAsk, show k.settings = h.settings from hsettings]
    rfl
  unfold driven
  rw [hk.finds, hask, hk.attempted hsteady _ rfl]

theorem versionIn_some (line : String) : versionIn (some line) = Version.parse line := rfl

/-- A version line that is put in the place of a missing one has no version either. -/
theorem versionIn_getD (line : Option String) :
    Version.parse ((line.filter (· ≠ "")).getD "version unknown") = versionIn line := by
  have hunknown : Version.parse "version unknown" = .ok none := by rfl
  cases line with
  | none => exact hunknown
  | some line =>
    by_cases hline : line = ""
    · subst hline
      exact hunknown
    · rw [Option.filter_some_pos (by simpa using hline)]
      rfl

theorem rejects_checkLeastVersion (h : Host) (name least line : String) :
    Rejects h ((meets least (some line)).map fun ok => if ok then 0 else 1) (checkLeastVersion name least line) := by
  unfold meets checkLeastVersion
  show Rejects h _ fun t => Act.ofExcept .digits (Version.parse line) >>= _
  rw [versionIn_some]
  cases Version.parse line with
  | error e => exact rejects_fail h (.digits e)
  | ok found =>
    refine Rejects.after (a := found) rfl rfl ?_
    cases found with
    | none => exact rejects_reject h _
    | some found =>
      show Rejects h ((Version.reaches found.parts least).map fun ok => if ok then 0 else 1) _
      simp only
      cases Version.reaches found.parts least with
      | error f => exact rejects_fail h f
      | ok reached =>
        refine Rejects.after (a := reached) rfl rfl ?_
        cases reached with
        | true => exact rejects_pass h _
        | false => exact rejects_reject h _

/-- The check of a tool that is there ends with the fault that it has when it is asked. -/
theorem lacks_of_error {tool : String × String} {f : Fault} (hfound : h.finds tool.2 = true)
    (hsaid : said h tool.2 = .error f) : lacks h tool = .error f := by
  rw [lacks, if_pos hfound, hsaid]
  cases leastVersions.get? tool.1 with
  | none => rfl
  | some least => simp only [satisfies_of_error hsaid]; rfl

theorem lacks_of_missing {tool : String × String} (hmissing : h.finds tool.2 = false) : lacks h tool = .ok 1 := by
  rw [lacks, hmissing]
  rfl

theorem rejects_checkTool (h : Host) (tool : String × String) : Rejects h (lacks h tool) fun t => checkTool t tool := by
  obtain ⟨name, program⟩ := tool
  refine Rejects.after (a := h) (Act.on_get h) rfl ?_
  cases hfinds : h.finds program with
  | false =>
    have hlacks : lacks h (name, program) = .ok 1 := lacks_of_missing hfinds
    rw [hlacks]
    exact rejects_reject h _
  | true =>
    simp only [Bool.not_true, Bool.false_eq_true, if_false]
    have hasked := on_versionLine program h
    have hframe : ((versionAsk program).left h).frame = h.frame := Host.frame_left h _
    cases hsaid : said h program with
    | error f =>
      have hlacks : lacks h (name, program) = .error f := lacks_of_error hfinds hsaid
      rw [hsaid] at hasked
      rw [hlacks]
      exact rejects_after_fault hasked hframe
    | ok line =>
      rw [hsaid] at hasked
      rw [lacks, if_pos hfinds, hsaid]
      refine Rejects.after hasked hframe ?_
      cases hleast : leastVersions.get? name with
      | none => exact (rejects_pass _ _).then fun k _ => rejects_pure k
      | some least =>
        have hmeets : meets least line = meets least (some ((line.filter (· ≠ "")).getD "version unknown")) := by
          unfold meets
          rw [← versionIn_getD line]
          rfl
        refine (rejects_pass _ _).then fun k _ => ?_
        simp only [satisfies_of_said hsaid]
        rw [hmeets]
        exact rejects_checkLeastVersion k name least _

theorem rejects_checkDriver (h : Host) : Rejects h (driven h) checkDriver := by
  refine Rejects.after (a := h) (Act.on_get h) rfl ?_
  unfold driven
  cases h.finds "nvidia-smi" with
  | false => exact rejects_skip h _
  | true =>
    simp only [Bool.not_true, Bool.false_eq_true, if_false, if_true]
    have htried := Command.on_tried (driverAsk h) some h
    have hframe : ((driverAsk h).left h).frame = h.frame := Host.frame_left h _
    cases hended : (driverAsk h).attempted h with
    | error f =>
      rw [hended] at htried
      exact rejects_after_fault htried hframe
    | ok e =>
      rw [hended] at htried
      refine Rejects.after htried hframe ?_
      cases isSuccess _ with
      | true => exact rejects_pass _ _
      | false => exact rejects_skip _ _

/-- How many failures the check of the test suite enters. -/
def entered (h : Host) : Except Fault Nat :=
  (counted (lacks h) required.entries).bind fun n => (driven h).map (n + ·)

/-- The check of the tools of a build enters a failure for each that is missing or too old. -/
theorem rejects_dependencies (hsteady : h.Steady) (c : SuiteConfig) : Rejects h (entered h) (dependencies c) := by
  have htest : ((Console.test "Running dependency tests...").on h).2.frame = h.frame := rfl
  refine Rejects.after (a := ()) rfl htest ?_
  have hloop := rejects_foldlM (F := checkTool) (q := lacks h) required.entries
    ((Console.test "Running dependency tests...").on h).2 fun tool _ k hk => by
      have htool := rejects_checkTool k tool
      rwa [lacks_congr (hk.trans htest) hsteady] at htool
  refine hloop.bind fun k hk => ?_
  have hdriver := rejects_checkDriver k
  rwa [driven_congr (hk.trans htest) hsteady] at hdriver

end Category

/-! ## Both checks -/

namespace Toolchain

open Category

variable {h k : Host}

/-- What the check of the test suite ends with before it is through: a tool or the graphics driver that is there has a
fault when it is asked, or the version of the one tool that has to have one is too long to be read. -/
inductive Hinders (h : Host) : Fault → Prop
  | unread {tool : String × String} {f : Fault} (htool : tool ∈ required.entries) (hfound : h.finds tool.2 = true)
      (hsaid : said h tool.2 = .error f) : Hinders h f
  | swollen {line : String} {e : Text.TooManyDigits} (hfound : h.finds "cmake" = true)
      (hsaid : said h "cmake" = .ok (some line)) (he : Version.parse line = .error e) : Hinders h (.digits e)
  | driver {f : Fault} (hfound : h.finds "nvidia-smi" = true) (hf : (driverAsk h).attempted h = .error f) : Hinders h f

/-- What is required of the one tool is a version number itself. -/
theorem exists_reaches (found : List Int) : ∃ reached, Version.reaches found "3.24.0" = .ok reached := by
  have hparse : Version.parse "3.24.0" = .ok (some ⟨3, 24, 0⟩) := by rfl
  unfold Version.reaches
  rw [hparse]
  exact ⟨_, rfl⟩

theorem lacks_cmake (hfound : h.finds "cmake" = true) :
    lacks h ("cmake", "cmake") = (satisfies h "cmake" "3.24.0").map fun ok => if ok then 0 else 1 := by
  rw [lacks, if_pos hfound]
  rfl

theorem lacks_other {tool : String × String} (hleast : leastVersions.get? tool.1 = none)
    (hfound : h.finds tool.2 = true) : lacks h tool = (said h tool.2).map fun _ => 0 := by
  rw [lacks, if_pos hfound, hleast]

theorem leastVersions_get?_of_ne {tool : String × String} (htool : tool ∈ required.entries)
    (hne : tool ≠ ("cmake", "cmake")) : leastVersions.get? tool.1 = none := by
  have hall : ∀ tool ∈ required.entries, tool ≠ ("cmake", "cmake") → leastVersions.get? tool.1 = none := by decide
  exact hall tool htool hne

theorem hinders_of_lacks {tool : String × String} (htool : tool ∈ required.entries) {f : Fault}
    (hf : lacks h tool = .error f) : Hinders h f := by
  cases hfound : h.finds tool.2 with
  | false =>
    rw [lacks_of_missing hfound] at hf
    cases hf
  | true =>
    by_cases hcmake : tool = ("cmake", "cmake")
    · subst hcmake
      rw [lacks_cmake hfound] at hf
      cases hsaid : said h "cmake" with
      | error g =>
        rw [satisfies_of_error hsaid] at hf
        cases hf
        exact .unread htool hfound hsaid
      | ok line =>
        rw [satisfies_of_said hsaid] at hf
        cases hversion : versionIn line with
        | ok version =>
          obtain ⟨reached, hreached⟩ : ∃ reached, meets "3.24.0" line = .ok reached := by
            cases version with
            | none => exact ⟨false, meets_of_none hversion⟩
            | some version => rw [meets_of_some hversion]; exact exists_reaches version.parts
          rw [hreached] at hf
          cases hf
        | error e =>
          rw [meets_of_error hversion] at hf
          cases hf
          cases line with
          | none => cases hversion
          | some line => exact .swollen hfound hsaid hversion
    · rw [lacks_other (leastVersions_get?_of_ne htool hcmake) hfound] at hf
      cases hsaid : said h tool.2 with
      | error g =>
        rw [hsaid] at hf
        cases hf
        exact .unread htool hfound hsaid
      | ok line => rw [hsaid] at hf; cases hf

theorem Hinders.lacks_or_driven {f : Fault} (hf : Hinders h f) :
    (∃ tool ∈ required.entries, ∃ g, lacks h tool = .error g) ∨ ∃ g, driven h = .error g := by
  cases hf with
  | @unread tool _ htool hfound hsaid =>
    exact .inl ⟨tool, htool, f, lacks_of_error hfound hsaid⟩
  | @swollen line e hfound hsaid he =>
    refine .inl ⟨("cmake", "cmake"), by decide, .digits e, ?_⟩
    rw [lacks_cmake hfound, satisfies_of_said hsaid, meets_of_error ((versionIn_some line).trans he)]
    rfl
  | driver hfound hf =>
    refine .inr ⟨f, ?_⟩
    rw [driven, if_pos hfound, hf]
    rfl

theorem driven_cases (h : Host) : (∃ f, Hinders h f ∧ driven h = .error f) ∨ driven h = .ok 0 := by
  unfold driven
  split
  case isTrue hfound =>
    cases hended : (driverAsk h).attempted h with
    | error f => exact .inl ⟨f, .driver hfound hended, rfl⟩
    | ok _ => exact .inr rfl
  case isFalse => exact .inr rfl

/-- Either something hinders the check of the test suite, or it is through with all the tools. -/
theorem entered_cases (h : Host) :
    (∃ f, Hinders h f ∧ entered h = .error f) ∨
      (∀ f, ¬ Hinders h f) ∧ ∃ n, entered h = .ok n ∧ (∀ tool ∈ required.entries, ∃ m, lacks h tool = .ok m) ∧
        (n = 0 ↔ ∀ tool ∈ required.entries, lacks h tool = .ok 0) := by
  unfold entered
  rcases Tally.counted_cases (q := lacks h) required.entries with
    ⟨f, tool, htool, hf, hcounted⟩ | ⟨n, hcounted, hall, hzero⟩
  · rw [hcounted]
    exact .inl ⟨f, hinders_of_lacks htool hf, rfl⟩
  rw [hcounted]
  rcases driven_cases h with ⟨f, hhinders, hdriven⟩ | hdriven
  · rw [hdriven]
    exact .inl ⟨f, hhinders, rfl⟩
  · refine .inr ⟨fun f hf => ?_, n, by rw [hdriven]; rfl, hall, hzero⟩
    rcases hf.lacks_or_driven with ⟨tool, htool, g, hg⟩ | ⟨g, hg⟩
    · obtain ⟨m, hm⟩ := hall tool htool
      cases hm.symm.trans hg
    · cases hdriven.symm.trans hg

/-- If no check of a tool ends with a fault, none of them enters a failure exactly if all tools are there and the one
that has to have a version reaches it. -/
theorem lacks_zero_iff (hall : ∀ tool ∈ required.entries, ∃ m, lacks h tool = .ok m) :
    (∀ tool ∈ required.entries, lacks h tool = .ok 0) ↔
      missing h required = [] ∧ satisfies h "cmake" "3.24.0" = .ok true := by
  rw [missing_eq_nil_iff]
  constructor
  · intro hzero
    have hfound : ∀ tool ∈ required.entries, h.finds tool.2 = true := by
      intro tool htool
      refine Bool.not_eq_false _ ▸ fun hno => ?_
      have hlacks := hzero tool htool
      rw [lacks_of_missing hno] at hlacks
      cases hlacks
    refine ⟨hfound, ?_⟩
    have hlacks := hzero ("cmake", "cmake") (by decide)
    rw [lacks_cmake (hfound ("cmake", "cmake") (by decide))] at hlacks
    cases hsatisfies : satisfies h "cmake" "3.24.0" with
    | error f => rw [hsatisfies] at hlacks; cases hlacks
    | ok reached =>
      cases reached with
      | true => rfl
      | false => rw [hsatisfies] at hlacks; cases hlacks
  · rintro ⟨hfound, hsatisfies⟩ tool htool
    by_cases hcmake : tool = ("cmake", "cmake")
    · subst hcmake
      rw [lacks_cmake (hfound _ htool), hsatisfies]
      rfl
    · obtain ⟨m, hm⟩ := hall tool htool
      rw [lacks_other (leastVersions_get?_of_ne htool hcmake) (hfound tool htool)] at hm ⊢
      cases hsaid : said h tool.2 with
      | error f => rw [hsaid] at hm; cases hm
      | ok line => rfl

/-- What the check of a build comes to, where `e` is the error that a version is not reached: the error about the tools
that are missing, if there are any; or else it goes by the version of the one tool that has to have one. -/
def verdict (h : Host) (e : PipelineError) : Except Fault Unit :=
  if missing h required = [] then
    (satisfies h "cmake" "3.24.0").bind fun ok => if ok then .ok () else .error (.pipeline e)
  else .error (.pipeline (missingError required (missing h required)))

theorem on_check_required (h : Host) : ∃ e : PipelineError, e.sort = .tools ["cmake"] ∧
    ((check required leastVersions).on h).1 = verdict h e := by
  obtain ⟨e, hsort, hversion⟩ := on_checkVersion "cmake" "cmake" "3.24.0" h
  refine ⟨e, hsort, ?_⟩
  unfold verdict
  by_cases hfound : missing h required = []
  · rw [if_pos hfound]
    have hcheck : (check required leastVersions).on h = (checkVersion "cmake" "cmake" "3.24.0").on h :=
      on_check_of_found hfound "3.24.0" rfl
    rw [hcheck, hversion]
  · rw [if_neg hfound, on_check_of_missing hfound]

/-- A number of failures and the end of a check that both say that all is well, or that it is not. -/
theorem verdicts_iff {failed : Nat} {r : Except Fault Unit}
    (h : failed = 0 ∧ r = .ok () ∨ 0 < failed ∧ ∃ f, r = .error f ∧ f.faultClass = .tool) :
    (0 < failed ↔ ∃ f, r = .error f ∧ f.faultClass = .tool) ∧ (failed = 0 ↔ r = .ok ()) := by
  rcases h with ⟨rfl, rfl⟩ | ⟨hpos, f, rfl, hf⟩
  · simp
  · exact ⟨iff_of_true hpos ⟨f, rfl, hf⟩, iff_of_false (by omega) nofun⟩

/-- The number of failures that the checks of the tools enter says the same as the end of the check of a build. -/
theorem verdicts_of_lacks {n : Nat} {e : PipelineError} (hall : ∀ tool ∈ required.entries, ∃ m, lacks h tool = .ok m)
    (hzero : n = 0 ↔ ∀ tool ∈ required.entries, lacks h tool = .ok 0) (hclass : (Fault.pipeline e).faultClass = .tool) :
    n = 0 ∧ verdict h e = .ok () ∨ 0 < n ∧ ∃ f, verdict h e = .error f ∧ f.faultClass = .tool := by
  unfold verdict
  by_cases hwell : n = 0
  · obtain ⟨hmissing, hsatisfies⟩ := (lacks_zero_iff hall).1 (hzero.1 hwell)
    rw [if_pos hmissing, hsatisfies]
    exact .inl ⟨hwell, rfl⟩
  refine .inr ⟨Nat.pos_of_ne_zero hwell, ?_⟩
  by_cases hmissing : missing h required = []
  · -- as no tool is missing, it is the version that is not reached
    obtain ⟨m, hm⟩ := hall ("cmake", "cmake") (by decide)
    rw [lacks_cmake (missing_eq_nil_iff.1 hmissing ("cmake", "cmake") (by decide))] at hm
    cases hsatisfies : satisfies h "cmake" "3.24.0" with
    | error f => rw [hsatisfies] at hm; cases hm
    | ok reached =>
      cases reached with
      | true => exact absurd (hzero.2 ((lacks_zero_iff hall).2 ⟨hmissing, hsatisfies⟩)) hwell
      | false => exact ⟨_, if_pos hmissing, hclass⟩
  · exact ⟨_, if_neg hmissing, rfl⟩

/-- The check of the test suite enters a failure exactly if that of a build ends with an error about
tools, for any two hosts with the same programs, provided that nothing hinders the first. If something does, the
check of the test suite ends with that fault and enters nothing. The check of a build ends with the error about
tools that are missing all the same; if there are none, it goes by the version of the one tool that has to have one. -/
theorem checks_agree (hsteady : h.Steady) (hsame : SamePrograms h k) (c : SuiteConfig) :
    ((∀ f, ¬ Hinders h f) → ∃ d h', (dependencies c {}).on h = (.ok d, h') ∧
      (0 < d.failed ↔ ∃ f, ((check required leastVersions).on k).1 = .error f ∧ f.faultClass = .tool) ∧
      (d.failed = 0 ↔ ((check required leastVersions).on k).1 = .ok ())) ∧
    ((∃ f, Hinders h f) → ∃ f e, Hinders h f ∧ ((dependencies c {}).on h).1 = .error f ∧ e.sort = .tools ["cmake"] ∧
      ((check required leastVersions).on k).1 = verdict h e) := by
  obtain ⟨e, hsort, hcheck⟩ := on_check_required k
  rw [verdict, hsame.missing, satisfies, hsame.said hsteady, ← satisfies, ← verdict] at hcheck
  have hclass : (Fault.pipeline e).faultClass = .tool := by
    simp [Fault.faultClass, hsort]
  have hdeps := rejects_dependencies hsteady c
  rcases entered_cases h with ⟨f, hhinders, hentered⟩ | ⟨hfree, n, hentered, hall, hzero⟩
  · rw [hentered] at hdeps
    exact ⟨fun hfree => absurd hhinders (hfree f), fun _ => ⟨f, e, hhinders, hdeps.eq_error {}, hsort, hcheck⟩⟩
  · rw [hentered] at hdeps
    refine ⟨fun _ => ?_, fun hsome => absurd hsome (not_exists.2 hfree)⟩
    obtain ⟨d, h', hon, hd⟩ := hdeps.exists_ok {}
    replace hd : d.failed = n := hd.trans (Nat.zero_add n)
    refine ⟨d, h', hon, verdicts_iff ?_⟩
    rw [hd, hcheck]
    exact verdicts_of_lacks hall hzero hclass

end Toolchain

namespace Sample

/-- A host with the tools of a build, of which one is too old. -/
def old : Host where
  here := ⟨1, []⟩
  clock := ⟨2024, 1, 1, 0, 0, 0⟩
  settings := ⟨"", "", "", "main", 60⟩
  onPath := ["cmake", "git", "python", "rustc"]
  respond := fun _ _ => .ended 0 "version 3.20.1\n" "" []

/-- What stands in front of a version number. -/
def title : List Char := ['c', 'm', 'a', 'k', 'e', ' ', 'v', 'e', 'r', 's', 'i', 'o', 'n', ' ']

/-- What a tool says whose version number begins with `count` nines. -/
def nines (count : Nat) : List Char := title ++ (List.replicate count '9' ++ ['.', '1'])

/-- A host with one tool of a build, whose version cannot be read. -/
def swollen : Host where
  here := ⟨1, []⟩
  clock := ⟨2024, 1, 1, 0, 0, 0⟩
  settings := ⟨"", "", "", "main", 60⟩
  onPath := ["cmake"]
  respond := fun _ _ => .ended 0 (String.ofList (nines 4301)) "" []

theorem versionLineOf_nines (count : Nat) :
    Toolchain.versionLineOf ⟨0, String.ofList (nines count), ""⟩ = some (String.ofList (nines count)) := by
  have htitle : ∀ c ∈ title, Text.isLineEnd c = false := by simp [title, Text.isLineEnd]
  have hend : ∀ c ∈ ['.', '1'], Text.isLineEnd c = false := by simp [Text.isLineEnd]
  have hlast : (nines count).getLast? = some '1' := by
    rw [nines, ← List.append_assoc, List.getLast?_append]
    rfl
  have hne : nines count ≠ [] := List.cons_ne_nil _ _
  refine Toolchain.versionLineOf_line hne (by rintro c ⟨⟩; decide) (fun c hc => ?_) (fun c hc => ?_) 0 ""
  · obtain rfl : '1' = c := Option.some.inj (hlast.symm.trans hc)
    decide
  · rcases List.mem_append.1 hc with hc | hc
    · exact htitle c hc
    · rcases List.mem_append.1 hc with hc | hc
      · rw [List.eq_of_mem_replicate hc]
        decide
      · exact hend c hc

theorem overlong_nines {count : Nat} (hcount : Text.maxDigits < count) :
    Version.Overlong (String.ofList (nines count)) := by
  have hall : title.all (fun c => !Text.isDigit c) = true := by decide +kernel
  have htitle : ∀ c ∈ title, Text.isDigit c = false := fun c hc => by simpa using List.all_eq_true.1 hall c hc
  refine Version.overlong_of_major htitle (fun c hc => ?_) (by rwa [List.length_replicate]) (by decide)
  rw [List.eq_of_mem_replicate hc]
  decide

end Sample

namespace Toolchain

open Category

/-- A tool that is too old: it is found by both checks, also when one host has been asked before. -/
theorem checks_agree_sample : ∃ d h',
    (dependencies ⟨⟨1, []⟩, false, false, false⟩ {}).on Sample.old = (.ok d, h') ∧ 0 < d.failed ∧
    ∃ f, ((check required leastVersions).on { Sample.old with answered := [versionAsk "git"] }).1 = .error f ∧
      f.faultClass = .tool := by
  have hsteady : Sample.old.Steady := ⟨fun _ => rfl, nofun⟩
  have hsaid : ∀ program, Text.hasNull program = false → said Sample.old program = .ok (some "version 3.20.1") :=
    fun program hname => (said_of_ended hname rfl).trans (congrArg Except.ok (by decide +kernel))
  have hfree : ∀ f, ¬ Hinders Sample.old f := by
    rintro f (⟨htool, -, herror⟩ | ⟨-, hline, he⟩ | ⟨hfound, -⟩)
    · have hnames : ∀ tool ∈ required.entries, Text.hasNull tool.2 = false := by decide
      rw [hsaid _ (hnames _ htool)] at herror
      cases herror
    · rw [hsaid _ (by decide)] at hline
      cases hline
      cases he
    · cases hfound
  have hcheck : ∃ f, ((check required leastVersions).on { Sample.old with answered := [versionAsk "git"] }).1 =
      .error f ∧ f.faultClass = .tool :=
    ⟨.pipeline (oldError "cmake" "cmake" "3.24.0" ⟨3, 20, 1⟩), rfl, rfl⟩
  obtain ⟨d, h', hon, hfailed, -⟩ :=
    (checks_agree hsteady (k := { Sample.old with answered := [versionAsk "git"] }) ⟨rfl, rfl⟩
      ⟨⟨1, []⟩, false, false, false⟩).1 hfree
  exact ⟨d, h', hon, hfailed.2 hcheck, hcheck⟩

/-- The checks do not agree if a tool is missing and the version of another has too many digits. -/
theorem checks_disagree : Sample.swollen.Steady ∧
    ¬ ((∃ d h', (dependencies ⟨⟨1, []⟩, false, false, false⟩ {}).on Sample.swollen = (.ok d, h') ∧ 0 < d.failed) ↔
      ∃ f, ((check required leastVersions).on Sample.swollen).1 = .error f ∧ f.faultClass = .tool) := by
  have hsteady : Sample.swollen.Steady := ⟨fun _ => rfl, nofun⟩
  have hsaid : said Sample.swollen "cmake" = .ok (some (String.ofList (Sample.nines 4301))) :=
    (said_of_ended (by decide) rfl).trans (congrArg Except.ok (Sample.versionLineOf_nines 4301))
  obtain ⟨e, he⟩ := Version.parse_of_overlong (Sample.overlong_nines (by decide : Text.maxDigits < 4301))
  have hlacks : lacks Sample.swollen ("cmake", "cmake") = .error (.digits e) := by
    rw [lacks_cmake (by decide), satisfies_of_said hsaid, meets_of_error ((versionIn_some _).trans he)]
    rfl
  have hdeps := rejects_dependencies hsteady ⟨⟨1, []⟩, false, false, false⟩
  rw [entered, show required.entries = ("cmake", "cmake") :: required.entries.tail from rfl, Tally.counted,
    hlacks] at hdeps
  have hmissing : missing Sample.swollen required ≠ [] := by decide
  refine ⟨hsteady, fun hiff => ?_⟩
  obtain ⟨d, h', hon, -⟩ := hiff.2 ⟨_, by rw [on_check_of_missing hmissing], rfl⟩
  have hend := hdeps.eq_error {}
  rw [hon] at hend
  cases hend

end Toolchain

end CiPipeline
