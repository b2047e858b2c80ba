import CiPipeline.Proofs.Dict
import CiPipeline.Proofs.Lint
import CiPipeline.Proofs.Path

/-
Where the programs that lint, format and package look for modules. They are started in the directory of the
sources, with the path of their modules in front of the search path. That path is the one that the environment
gives, so if it does not start at the root, a program follows it once more from the sources (`modules_seen_iff`).
-/

namespace CiPipeline

/-! ## Search paths -/

/-- The first entry of the module search path that a command is given. -/
def Command.moduleHead? (c : Command) : Option String :=
  match c.env.bind (·.get? "PYTHONPATH") with
  | some (.text path) => (Text.splitOn ':' path).head?
  | _ => none

/-- A command started from `here` with a working directory finds the modules of the sources: the first entry of its
search path, seen from that directory, is theirs. -/
def Command.SeesModules (c : Command) (here source : Path) : Prop :=
  ∀ d, c.cwd = some d → ∃ entry, c.moduleHead? = some entry ∧
    (here.resolve (.parse d)).resolve (.parse entry) = here.resolve (source.child "python")

namespace Entrypoint

variable {x : Context}

/-! ## Commands for the sources -/

/-- A command without a directory, or one in the source directory with the environment of the context. -/
def ForSource (x : Context) (c : Command) : Prop :=
  c.cwd = none ∨ c.cwd = some x.path.text ∧ c.env = some x.values

theorem startsOnly_exec (argv : List String) : (exec x argv (some x.path)).StartsOnly (ForSource x) := by
  unfold exec
  refine (Act.startsOnly_start (.inr ⟨rfl, rfl⟩)).attempt.bind fun r => ?_
  cases r with
  | ok e => exact Act.startsOnly_pure _
  | error f =>
    refine .ite ?_ (.ite ?_ (Act.startsOnly_fail f))
    · exact (Act.prints_error _ _ _ _).startsOnly.bind fun _ => Act.startsOnly_pure _
    · exact (Act.prints_error _ _ _ _).startsOnly.bind fun _ => Act.startsOnly_pure _

theorem startsOnly_runLinter (t : LintTask) : (Linter.run t x.path.text x.values).StartsOnly (ForSource x) := by
  have hdemand : ∀ c : Command, c.cwd = none → c.demand.StartsOnly (ForSource x) := fun c hc =>
    (Act.startsOnly_start (.inl hc)).bind fun e => .ite (Act.startsOnly_pure e) (Act.startsOnly_fail _)
  have hcheck : (Linter.check t.tool).StartsOnly (ForSource x) :=
    ((hdemand _ rfl).bind fun _ => Act.startsOnly_pure _).recover fun _ => Act.startsOnly_fail _
  unfold Linter.run
  exact hcheck.bind fun _ => (Act.startsOnly_ofExcept _ _).bind fun _ => Act.startsOnly_start (.inr ⟨rfl, rfl⟩)

theorem startsOnly_lintWith (l : String × Option String) : (lintWith x l).StartsOnly (ForSource x) := by
  unfold lintWith
  refine (Act.prints_info _).startsOnly.bind fun _ => (startsOnly_runLinter _).attempt.bind fun r => ?_
  cases r with
  | error f => exact .ite (Act.prints_warning _).startsOnly (Act.startsOnly_fail f)
  | ok e =>
    have hwarned : (if !e.isSuccess then Console.warning (l.1 ++ " reported issues (exit " ++ toString e.code ++ ")")
        else pure ()).StartsOnly (ForSource x) := .ite (Act.prints_warning _).startsOnly (Act.startsOnly_pure ())
    exact .ite ((Act.prints_plain _).startsOnly.bind fun _ => hwarned) hwarned

theorem startsOnly_lint : (lint x).StartsOnly (ForSource x) := by
  unfold lint
  refine (Act.prints_info _).startsOnly.bind fun _ => Act.startsOnly_get_bind fun h => .ite ?_ ?_
  · exact (Act.prints_warning _).startsOnly.bind fun _ => Act.startsOnly_pure 0
  · exact (Act.startsOnly_forM startsOnly_lintWith _).bind fun _ => Act.startsOnly_pure 0

theorem startsOnly_format : (format x).StartsOnly (ForSource x) := by
  unfold format
  refine (Act.prints_info _).startsOnly.bind fun _ => Act.startsOnly_get_bind fun h => .ite ?_ ?_
  · exact (Act.prints_warning _).startsOnly.bind fun _ => Act.startsOnly_pure 0
  · refine (startsOnly_exec _).bind fun code => .ite ?_ (Act.startsOnly_pure code)
    exact (Act.prints_success _).startsOnly.bind fun _ => Act.startsOnly_pure code

theorem startsOnly_package : (package x).StartsOnly (ForSource x) := by
  unfold package
  refine (Act.prints_info _).startsOnly.bind fun _ => (startsOnly_exec _).bind fun code => ?_
  refine .ite (Act.startsOnly_pure code) ((Act.prints_success _).startsOnly.bind fun _ => ?_)
  refine Act.startsOnly_get_bind fun h => ?_
  exact (Act.prints_forM (fun _ => Act.prints_plain _) _).startsOnly.bind fun _ => Act.startsOnly_pure 0

/-! ## What the commands are given -/

theorem get?_modulePath (source : String) (env : Dict String) :
    (Context.values ⟨source, Settings.sourceEnv source env⟩).get? "PYTHONPATH" =
      some (.text (Settings.modulePath source ((env.get? "PYTHONPATH").getD ""))) := by
  refine (Dict.get?_map Value.text "PYTHONPATH" _).trans ?_
  have hset := Dict.get?_set (env.set Settings.sourceVariable source) "PYTHONPATH" "PYTHONPATH"
    (Settings.modulePath source ((env.get? "PYTHONPATH").getD ""))
  rw [if_pos rfl] at hset
  exact congrArg (Option.map Value.text) hset

/-- The modules of the sources come first, if no colon in their path cuts it into two. -/
theorem head?_modulePath {source : String} (hcolon : ':' ∉ source.toList) (current : String) :
    (Text.splitOn ':' (Settings.modulePath source current)).head? = some (Path.append source "python") := by
  have hhead : ':' ∉ (Path.append source "python").toList := by
    unfold Path.append
    split
    · decide
    · split
      · simp [hcolon]
      · simp [hcolon]
  unfold Settings.modulePath Text.splitOn
  split
  · rw [Text.pieces_of_not_mem hhead, List.map_singleton, List.head?_cons, String.ofList_toList]
  · have htext : (Path.append source "python" ++ ":" ++ current).toList =
        (Path.append source "python").toList ++ ':' :: current.toList := by
      rw [String.toList_append, String.toList_append, List.append_assoc]
      rfl
    rw [htext, Text.pieces_append_sep, Text.pieces_of_not_mem hhead, List.singleton_append, List.map_cons,
      List.head?_cons, String.ofList_toList]

theorem moduleHead?_of_env {c : Command} {v : String} (hcolon : ':' ∉ v.toList) {env : Dict String}
    (hc : c.env = some (Context.values ⟨v, Settings.sourceEnv v env⟩)) :
    c.moduleHead? = some (Path.append v "python") := by
  rw [Command.moduleHead?, hc, Option.bind_some, get?_modulePath]
  exact head?_modulePath hcolon _

theorem ofHost_eq {h : Host} {v : String} (hv : h.env.get? Settings.sourceVariable = some v) (hne : v ≠ "") :
    Context.ofHost h none = ⟨v, Settings.sourceEnv v h.env⟩ := by
  have hgiven : Settings.given? h.env Settings.sourceVariable = some v := by
    rw [Settings.given?, hv, Option.filter_some, if_pos (by simpa using hne)]
  have hsource : Settings.sourceDirectory h.env h.here (some Settings.containerSource) = v := by
    rw [Settings.sourceDirectory, hgiven]
    rfl
  rw [Context.ofHost, Option.filter_none, Option.getD_none, hsource]

/-! ## Where they look for modules -/

/-- A command in the directory of the sources looks for modules where their path leads from there. -/
theorem seesModules_iff {c : Command} {here : Path} {v : String} (hne : v ≠ "")
    (hcwd : c.cwd = some (Path.parse v).text) (hhead : c.moduleHead? = some (Path.append v "python")) :
    c.SeesModules here (.parse v) ↔ (here.resolve (.parse v)).resolve (.parse v) = here.resolve (.parse v) := by
  have hinside : (Path.parse "python").Inside := by decide
  have hread : Path.parse (Path.text (.parse v)) = .parse v := Path.parse_text (Path.legible_parse v)
  have happend : Path.parse (Path.append v "python") = (Path.parse v).join (.parse "python") :=
    Path.parse_append hne (by decide)
  have hsees : c.SeesModules here (.parse v) ↔
      (here.resolve (.parse v)).resolve ((Path.parse v).join (.parse "python")) =
        here.resolve ((Path.parse v).join (.parse "python")) := by
    unfold Command.SeesModules
    rw [hcwd, hhead]
    constructor
    · intro hsees
      obtain ⟨entry, hsome, heq⟩ := hsees _ rfl
      cases hsome
      rwa [hread, happend] at heq
    · rintro heq d hd
      cases hd
      exact ⟨_, rfl, by rw [hread, happend]; exact heq⟩
  rw [hsees, Path.resolve_join_of_inside _ _ hinside, Path.resolve_join_of_inside _ _ hinside]
  constructor
  · intro heq
    exact congrArg (Path.mk 1) (List.append_cancel_right (Path.mk.inj heq).2)
  · intro heq
    rw [heq]

/-- Every linter, formatter or packaging program that is started in a directory is started in that of the sources, and
has their modules first on its search path. It sees them there if the path of the sources starts at the root, if it
goes down as often as it goes up, or if it goes up to the root and less often down; and in no other case. -/
theorem modules_seen_iff {h : Host} {v : String} (hv : h.env.get? Settings.sourceVariable = some v) (hne : v ≠ "")
    (hcolon : ':' ∉ v.toList) {word : String} {o : Operation} (hword : Operation.ofWord? word = some o)
    (ho : o = .lint ∨ o = .format ∨ o = .package) (words : List String) :
    ∃ cs, ((dispatch (word :: words)).on h).2.started = h.started ++ cs ∧ ∀ c ∈ cs, c.cwd ≠ none →
      c.cwd = some (Path.parse v).text ∧ c.moduleHead? = some (Path.append v "python") ∧
      (c.SeesModules h.here (.parse v) ↔ (Path.parse v).root ≠ 0 ∨ (Path.parse v).downs = (Path.parse v).ups ∨
        (Path.parse v).downs < (Path.parse v).ups ∧ h.here.depth ≤ (Path.parse v).ups) := by
  have hdispatch : (dispatch (word :: words)).on h = (perform (Context.ofHost h none) words o).on h := by
    refine (Act.on_bind_ok (Act.on_get h)).trans ?_
    simp only [orDefault, List.headD_cons, List.tail_cons, Option.getD_none, hword]
  have honly : ∀ x, (perform x words o).StartsOnly (ForSource x) := fun x => by
    rcases ho with rfl | rfl | rfl
    · exact startsOnly_lint
    · exact startsOnly_format
    · exact startsOnly_package
  obtain ⟨cs, hcs, hstarted⟩ := honly (Context.ofHost h none) h
  rw [ofHost_eq hv hne] at hcs hstarted hdispatch
  refine ⟨cs, by rw [hdispatch, hstarted], fun c hc hsome => ?_⟩
  obtain ⟨hcwd, henv⟩ := (hcs c hc).resolve_left hsome
  have hhead := moduleHead?_of_env hcolon henv
  refine ⟨hcwd, hhead, ?_⟩
  rw [seesModules_iff hne hcwd hhead]
  exact Path.resolve_resolve_iff h.here (.parse v)

end Entrypoint

namespace Sample

/-- A host with sources below its directory, which are found by the path `v`. -/
def sourcesAt (v : String) : Host :=
  { replying fun _ _ => .ended 0 "" "" [] with
    here := ⟨1, ["work"]⟩
    env := ⟨[("MLC_LLM_SOURCE_DIR", v), ("PYTHONPATH", "/opt")]⟩
    files := ⟨[(["work"], .directory), (["work", "src"], .directory), (["work", "src", "python"], .directory)]⟩ }

/-- The formatter as it is started there. -/
def formatted (v : String) : Command where
  program := .words ["black", "python/"]
  cwd := some (Path.parse v).text
  env := some (Entrypoint.Context.values ⟨v, Settings.sourceEnv v (sourcesAt v).env⟩)

end Sample

namespace Entrypoint

/-- The formatter sees the modules if the path of the sources starts at the root. -/
theorem modules_seen_iff_sample :
    ((dispatch ["format"]).on (Sample.sourcesAt "/work/src")).2.started = [Sample.formatted "/work/src"] ∧
    (Sample.formatted "/work/src").cwd = some "/work/src" ∧
    (Sample.formatted "/work/src").moduleHead? = some "/work/src/python" ∧
    (Sample.formatted "/work/src").SeesModules (Sample.sourcesAt "/work/src").here (.parse "/work/src") := by
  have hword : Operation.ofWord? "format" = some .format := rfl
  obtain ⟨cs, hcs, hall⟩ := modules_seen_iff (h := Sample.sourcesAt "/work/src") (v := "/work/src") rfl (by decide)
    (by decide) hword (.inr (.inl rfl)) []
  have hstarted : ((dispatch ["format"]).on (Sample.sourcesAt "/work/src")).2.started =
    [Sample.formatted "/work/src"] := rfl
  have hmem : Sample.formatted "/work/src" ∈ cs := by
    have hnone : (Sample.sourcesAt "/work/src").started = [] := rfl
    rw [hstarted, hnone, List.nil_append] at hcs
    exact hcs ▸ List.mem_singleton_self _
  obtain ⟨hcwd, hhead, hsees⟩ := hall _ hmem (Option.some_ne_none _)
  exact ⟨hstarted, hcwd, hhead, hsees.2 (.inl (by decide))⟩

/-- It does not if that path leads down from the current directory: it is followed once more from the sources. -/
theorem modules_missed :
    ((dispatch ["format"]).on (Sample.sourcesAt "src")).2.started = [Sample.formatted "src"] ∧
    (Sample.formatted "src").cwd = some "src" ∧ (Sample.formatted "src").moduleHead? = some "src/python" ∧
    (Sample.sourcesAt "src").here.resolve (.parse "src/python") = ⟨1, ["work", "src", "python"]⟩ ∧
    ((Sample.sourcesAt "src").here.resolve (.parse "src")).resolve (.parse "src/python") =
      ⟨1, ["work", "src", "src", "python"]⟩ ∧
    ¬ (Sample.formatted "src").SeesModules (Sample.sourcesAt "src").here (.parse "src") := by
  have hhead : (Sample.formatted "src").moduleHead? = some (Path.append "src" "python") :=
    moduleHead?_of_env (by decide) rfl
  refine ⟨rfl, rfl, hhead, by decide, by decide, ?_⟩
  rw [seesModules_iff (by decide) rfl hhead]
  decide

end Entrypoint

end CiPipeline
