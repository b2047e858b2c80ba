import CiPipeline.Proofs.Path
import CiPipeline.Proofs.Step.Course
import CiPipeline.Proofs.Text

/-
The directory that a container run enters. Its text is the working directory of the step behind that of the
repository, with some of the slashes made one and with slashes and dots taken away at the end, one character
after another. `enters_directory`: the first changes nothing about the directory that is named; the second
leaves it as it is if the last component does not end with a dot, and else names another one.
-/

namespace CiPipeline

namespace ContainerRun

/-! ## Slashes -/

/-- Making one slash of two leaves the components of a path as they are. -/
theorem componentsOf_append_halveSlashes (w cs : List Char) :
    Path.componentsOf (w ++ halveSlashes cs) = Path.componentsOf (w ++ cs) := by
  -- `w` is what was read before; a character that stays as it is goes there
  induction cs using halveSlashes.induct generalizing w with
  | case1 cs ih =>
    have hnone : Path.componentsOf ('/' :: cs) = Path.componentsOf cs := Path.componentsOf_append [] cs
    rw [halveSlashes, Path.componentsOf_append, Path.componentsOf_append, hnone]
    exact congrArg (Path.componentsOf w ++ ·) (ih [])
  | case2 c cs hpair ih =>
    have hshift := ih (w ++ [c])
    rw [List.append_assoc, List.append_assoc] at hshift
    rw [halveSlashes]
    · exact hshift
    · exact hpair
  | case3 => rw [halveSlashes]

/-! ## Dots at the end -/

/-- A component without the dots at its end. -/
def withoutDots (part : String) : String := String.ofList (part.toList.rdropWhile (· == '.'))

theorem withoutDots_concat_dot (p : List Char) :
    withoutDots (String.ofList (p ++ ['.'])) = withoutDots (String.ofList p) := by
  rw [withoutDots, withoutDots, String.toList_ofList, String.toList_ofList, List.rdropWhile_concat_pos _ _ _ rfl]

theorem withoutDots_concat_of_ne {c : Char} (hc : c ≠ '.') (p : List Char) :
    withoutDots (String.ofList (p ++ [c])) = String.ofList (p ++ [c]) := by
  rw [withoutDots, String.toList_ofList, List.rdropWhile_concat_neg _ _ _ (by simpa using hc)]

/-- Components from the last to the first, without dots at the end of the path. -/
def shornBack : List String → List String
  | [] => []
  | part :: before => if withoutDots part = "" then shornBack before else withoutDots part :: before

/-- Components without dots at the end of the path; those that are nothing but dots go altogether. -/
def shorn (parts : List String) : List String := (shornBack parts.reverse).reverse

theorem shorn_concat (parts : List String) (part : String) : shorn (parts ++ [part]) =
    if withoutDots part = "" then shorn parts else parts ++ [withoutDots part] := by
  unfold shorn
  rw [List.reverse_concat, shornBack]
  split
  · rfl
  · rw [List.reverse_cons, List.reverse_reverse]

theorem isComponent_of_withoutDots {part : String} (hpart : withoutDots part ≠ "") : Path.isComponent part = true := by
  by_contra hno
  have hcases : part = "" ∨ part = "." := by
    simpa [Path.isComponent, or_iff_not_imp_left] using hno
  rcases hcases with rfl | rfl
  · exact hpart rfl
  · exact hpart rfl

/-- It makes no difference to the end of a path whether a piece of nothing but dots is a component. -/
theorem shorn_append_filter (parts : List String) (piece : String) :
    shorn (parts ++ [piece].filter Path.isComponent) =
      if withoutDots piece = "" then shorn parts else parts ++ [withoutDots piece] := by
  cases hpiece : Path.isComponent piece with
  | true => rw [List.filter_singleton, hpiece]; exact shorn_concat parts piece
  | false =>
    have hdots : withoutDots piece = "" := by
      by_contra hno
      rw [isComponent_of_withoutDots hno] at hpiece
      cases hpiece
    rw [List.filter_singleton, hpiece, if_pos hdots]
    exact congrArg shorn (List.append_nil parts)

theorem componentsOf_of_pieces {cs p : List Char} {ps : List (List Char)} (hcs : Text.pieces '/' cs = ps ++ [p]) :
    Path.componentsOf cs =
      (ps.map String.ofList).filter Path.isComponent ++ [String.ofList p].filter Path.isComponent := by
  rw [Path.componentsOf, hcs, List.map_append, List.filter_append]
  rfl

/-- Whether a character is taken away at the end of a directory. -/
def isFinal (c : Char) : Bool := c == '/' || c == '.'

/-- What taking away slashes and dots does to the components of a path. -/
theorem componentsOf_rdropWhile (cs : List Char) :
    Path.componentsOf (cs.rdropWhile isFinal) = shorn (Path.componentsOf cs) := by
  -- from the end of the text: a final slash ends no component, any other character belongs to the last piece
  induction cs using List.reverseRecOn with
  | nil => rfl
  | append_singleton cs c ih =>
    by_cases hslash : c = '/'
    · rw [List.rdropWhile_concat_pos _ _ _ (by rw [hslash]; rfl), ih, hslash, Path.componentsOf_concat_slash]
    obtain ⟨ps, p, hcs, hcat⟩ := Text.pieces_concat hslash cs
    rw [componentsOf_of_pieces hcs] at ih
    rw [componentsOf_of_pieces hcat]
    by_cases hdot : c = '.'
    · subst hdot
      rw [List.rdropWhile_concat_pos _ _ _ rfl, ih, shorn_append_filter, shorn_append_filter, withoutDots_concat_dot]
    · have hsame := withoutDots_concat_of_ne hdot p
      have hsome : String.ofList (p ++ [c]) ≠ "" := by simp
      have hpart : Path.isComponent (String.ofList (p ++ [c])) = true :=
        isComponent_of_withoutDots (by rw [hsame]; exact hsome)
      rw [List.rdropWhile_concat_neg _ _ _ (by simp [isFinal, hslash, hdot]), componentsOf_of_pieces hcat,
        shorn_append_filter, hsame, if_neg hsome, List.filter_singleton, hpart]
      rfl

/-- The end of a path of which something is left: what was taken away is whole components, and dots. -/
theorem shorn_eq (parts : List String) : shorn parts = [] ∨ ∃ before part after,
    parts = before ++ part :: after ∧ shorn parts = before ++ [withoutDots part] ∧ withoutDots part ≠ "" := by
  induction parts using List.reverseRecOn with
  | nil => exact .inl rfl
  | append_singleton parts part ih =>
    rw [shorn_concat]
    by_cases hdots : withoutDots part = ""
    · rw [if_pos hdots]
      rcases ih with hnil | ⟨before, last, after, hparts, hshorn, hlast⟩
      · exact .inl hnil
      · exact .inr ⟨before, last, after ++ [part], by rw [hparts, List.append_assoc, List.cons_append], hshorn, hlast⟩
    · rw [if_neg hdots]
      exact .inr ⟨parts, part, [], rfl, rfl, hdots⟩

theorem shorn_cons {part : String} (hsame : withoutDots part = part) (hpart : part ≠ "") (parts : List String) :
    shorn (part :: parts) = part :: shorn parts := by
  induction parts using List.reverseRecOn with
  | nil =>
    have hsingle := shorn_concat [] part
    rwa [hsame, if_neg hpart] at hsingle
  | append_singleton parts last ih =>
    rw [← List.cons_append, shorn_concat, shorn_concat, ih]
    split <;> rfl

/-- Whether a component ends with a dot. -/
def EndsInDot (part : String) : Prop := part.toList.getLast? = some '.'

instance (part : String) : Decidable (EndsInDot part) := inferInstanceAs (Decidable (_ = _))

theorem withoutDots_eq_self_iff {part : String} : withoutDots part = part ↔ ¬ EndsInDot part := by
  have hself : withoutDots part = part ↔ part.toList.rdropWhile (· == '.') = part.toList := by
    rw [withoutDots, ← String.toList_inj, String.toList_ofList]
  rw [hself, List.rdropWhile_eq_self_iff, EndsInDot]
  cases hlist : part.toList with
  | nil => simp
  | cons c cs => simp [List.getLast?_eq_some_getLast]

theorem not_endsInDot_withoutDots (part : String) : ¬ EndsInDot (withoutDots part) := by
  rw [← withoutDots_eq_self_iff]
  unfold withoutDots
  rw [String.toList_ofList, List.rdropWhile_idempotent]

theorem withoutDots_ne_up (part : String) : withoutDots part ≠ ".." :=
  fun hup => not_endsInDot_withoutDots part (by rw [hup]; rfl)

/-- What is left of a path that stays inside stays inside. -/
theorem up_not_mem_normal_shorn {parts : List String} (hinside : ".." ∉ Path.normal parts) :
    ".." ∉ Path.normal (shorn parts) := by
  rcases shorn_eq parts with hnil | ⟨before, part, after, rfl, hshorn, -⟩
  · rw [hnil]
    exact List.not_mem_nil
  · rw [hshorn, Path.normal_concat_of_ne (withoutDots_ne_up part), List.mem_append, List.mem_singleton, not_or]
    exact ⟨Path.up_not_mem_normal_of_append hinside, (withoutDots_ne_up part).symm⟩

theorem shorn_of_not_endsInDot {parts : List String} (hparts : ∀ part ∈ parts, part ≠ "")
    (hlast : ∀ part ∈ parts.getLast?, ¬ EndsInDot part) : shorn parts = parts := by
  rcases List.eq_nil_or_concat parts with rfl | ⟨before, part, rfl⟩
  · rfl
  · rw [List.concat_eq_append] at *
    rw [List.getLast?_concat] at hlast
    have hsame : withoutDots part = part := withoutDots_eq_self_iff.2 (hlast part rfl)
    have hne : part ≠ "" := hparts part (by simp)
    rw [shorn_concat, hsame, if_neg hne]

theorem normal_shorn_ne {parts : List String} {part : String} (hlast : parts.getLast? = some part)
    (hdot : EndsInDot part) (hup : part ≠ "..") : Path.normal (shorn parts) ≠ Path.normal parts := by
  obtain ⟨before, rfl⟩ := List.getLast?_eq_some_iff.1 hlast
  rw [Path.normal_concat_of_ne hup]
  intro heq
  rcases shorn_eq (before ++ [part]) with hnil | ⟨before', part', after, -, hshorn, -⟩
  · rw [hnil] at heq
    exact List.append_ne_nil_of_right_ne_nil _ (List.cons_ne_nil _ _) heq.symm
  · rw [hshorn, Path.normal_concat_of_ne (withoutDots_ne_up part')] at heq
    obtain ⟨-, hpart⟩ := List.append_inj' heq rfl
    rw [← List.cons.inj hpart |>.1] at hdot
    exact not_endsInDot_withoutDots part' hdot

/-! ## The directory that is entered -/

theorem toList_directory (cwd : String) : (directory cwd).toList =
    ("/workspace".toList ++ halveSlashes ('/' :: cwd.toList)).rdropWhile isFinal := by
  rw [directory, String.toList_ofList, String.toList_append, String.toList_append]
  rfl

theorem root_parse_directory (cwd : String) : (Path.parse (directory cwd)).root = 1 := by
  rw [Path.parse, toList_directory, Text.rdropWhile_append rfl]
  rfl

theorem parts_parse_directory (cwd : String) :
    (Path.parse (directory cwd)).parts = "workspace" :: shorn (Path.parse cwd).parts := by
  have hworkspace : Path.componentsOf "/workspace".toList = ["workspace"] := by decide
  rw [Path.parts_parse, Path.parts_parse, toList_directory, componentsOf_rdropWhile, componentsOf_append_halveSlashes,
    Path.componentsOf_append, hworkspace]
  exact shorn_cons (by decide) (by decide) _

example : directory "docs//v1./.." = "/workspace/docs/v1" := by decide +kernel

theorem resolve_directory {cwd : String} (hinside : (Path.parse cwd).Inside) (here : Path) :
    here.resolve (Path.parse (directory cwd)) = ⟨1, "workspace" :: Path.normal (shorn (Path.parse cwd).parts)⟩ := by
  have hjoin : here.join (Path.parse (directory cwd)) = Path.parse (directory cwd) := by
    rw [Path.join, root_parse_directory]
    rfl
  have hfollow := Path.foldl_follow_append ["workspace"] _ [] (up_not_mem_normal_shorn hinside.2)
  rw [Path.resolve, hjoin, parts_parse_directory]
  exact congrArg (Path.mk 1) hfollow

end ContainerRun

namespace Step

/-- The path of the repository that the working directory of a step names. -/
def place (s : Step) : Path := .parse ((s.cwd.filter (· ≠ "")).getD ".")

/-- What the directory `d` that a container run enters has to do with a path of the repository. -/
structure Enters (p : Path) (d : String) : Prop where
  /-- It is what the path names without the dots at its end. -/
  shorn : ∀ here : Path, here.resolve (.parse d) = ⟨1, "workspace" :: Path.normal (ContainerRun.shorn p.parts)⟩
  /-- That is what the path names, if it does not end with a dot. -/
  named : (∀ part ∈ p.parts.getLast?, ¬ ContainerRun.EndsInDot part) → ∀ here : Path,
    here.resolve (.parse d) = ⟨1, "workspace" :: Path.normal p.parts⟩
  /-- It is not what the path names, if that is a name which ends with a dot. -/
  other : ∀ part ∈ p.parts.getLast?, ContainerRun.EndsInDot part → part ≠ ".." → ∀ here : Path,
    here.resolve (.parse d) ≠ ⟨1, "workspace" :: Path.normal p.parts⟩

theorem enters_place {s : Step} (hinside : s.place.Inside) :
    Enters s.place (ContainerRun.directory ((s.cwd.filter (· ≠ "")).getD ".")) where
  shorn here := ContainerRun.resolve_directory hinside here
  named hlast here := by
    have hsame : ContainerRun.shorn s.place.parts = s.place.parts :=
      ContainerRun.shorn_of_not_endsInDot (fun _ hpart => Path.ne_empty_of_mem_parse hpart) hlast
    exact (ContainerRun.resolve_directory hinside here).trans (by rw [← place, hsame])
  other part hlast hdot hup here heq := by
    rw [ContainerRun.resolve_directory hinside here] at heq
    exact ContainerRun.normal_shorn_ne hlast hdot hup (List.cons.inj (Path.mk.inj heq).2).2

/-- A container run mounts the repository at a fixed directory and enters a directory there. A step for the shell
with the same working directory runs at the same place of the repository, unless that ends with a dot. -/
theorem enters_directory (s : Step) (j : Job) (root : Path) (h : Host) {r : ContainerRun Value}
    (hmount : r.mountRepo = true) (hinside : s.place.Inside) :
    (∃ d rest, Enters s.place d ∧ (s.containerWords j root r).on h = (if root.hasNull then .error .nullInPath else
      .ok (Word.texts ["docker", "run", "--rm", "-v", (h.here.resolve root).text ++ ":" ++ ContainerRun.workspace,
        "-w", d] ++ rest), h)) ∧
    ∀ p k, (s.directory j root).on h = (.ok p, k) →
      p = ⟨1, (h.here.resolve root).parts ++ Path.normal s.place.parts⟩ := by
  refine ⟨⟨_, r.volumeWords ++ (Word.texts (ContainerRun.envWords (j.env.update r.env)) ++
    (r.userWords ++ r.image :: r.commandWords s.run)), enters_place hinside, ?_⟩, fun p k hon => ?_⟩
  · rw [on_containerWords, containerArgv, if_pos hmount, Host.resolve]
    cases root.hasNull with
    | true => rfl
    | false =>
      simp only [ContainerRun.command, ContainerRun.startWords, if_pos hmount, List.append_assoc]
      rfl
  · rw [on_directory] at hon
    rw [directoryAt_eq_ok (Prod.mk.inj hon).1]
    exact Path.resolve_join_of_inside h.here root hinside

end Step

namespace Sample

/-- A container with a compiler in it. -/
def compiler : ContainerRun Value where
  image := .text "gcc"

/-- A step with a working directory. -/
def compile (cwd : String) : Step := .inContainer "compile" "make" { image := "gcc" } (some cwd)

/-- The sources, where every command succeeds. -/
def quiet : Host := replying fun _ _ => .ended 0 "" "" []

end Sample

namespace Step

/-- Going through another directory leads to the one that is named. -/
theorem enters_directory_sample : ∃ d rest,
    (Sample.compile "docs//../src").place.Inside ∧ Path.normal (Sample.compile "docs//../src").place.parts = ["src"] ∧
    ((Sample.compile "docs//../src").containerWords Sample.checks ⟨1, ["src"]⟩ Sample.compiler).on Sample.quiet =
      (.ok (Word.texts ["docker", "run", "--rm", "-v", "/src:/workspace", "-w", d] ++ rest), Sample.quiet) ∧
    Path.resolve ⟨1, []⟩ (.parse d) = ⟨1, ["workspace", "src"]⟩ := by
  have hinside : (Sample.compile "docs//../src").place.Inside := by decide +kernel
  obtain ⟨⟨d, rest, henters, hon⟩, -⟩ := enters_directory (Sample.compile "docs//../src") Sample.checks ⟨1, ["src"]⟩
    Sample.quiet (r := Sample.compiler) rfl hinside
  exact ⟨d, rest, hinside, by decide +kernel, hon, henters.named (by decide +kernel) _⟩

/-- Leaving a directory at the end of the path is not done. -/
theorem final_dots_lost : (Sample.compile "build/..").place.Inside ∧
    Path.normal (Sample.compile "build/..").place.parts = [] ∧
    (∃ rest, ((Sample.compile "build/..").containerWords Sample.checks ⟨1, ["src"]⟩ Sample.compiler).on Sample.quiet =
      (.ok (Word.texts ["docker", "run", "--rm", "-v", "/src:/workspace", "-w", "/workspace/build"] ++ rest),
        Sample.quiet)) ∧
    Path.resolve ⟨1, []⟩ (.parse "/workspace/build") = ⟨1, ["workspace", "build"]⟩ :=
  ⟨by decide +kernel, by decide +kernel, ⟨_, rfl⟩, by decide +kernel⟩

end Step

end CiPipeline
