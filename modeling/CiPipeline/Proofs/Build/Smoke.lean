import CiPipeline.Proofs.Build.Phase

/-
The smoke test of a build. It gives a list of warnings, prints each of them, and changes nothing else
(`on_smokeTest`), unless the fault of its command is one that it lets through (`Escapes`): what the command
prints is no text, it cannot be waited for, a null character stands in it, or it is interrupted.
-/

namespace CiPipeline

namespace Host

/-- The host but for what was printed on the normal output. -/
def hushed (h : Host) : Host :=
  { h with
    journal := h.journal.filter fun
      | .out _ => false
      | _ => true }

variable {h k : Host}

theorem bare_hushed (h : Host) : h.hushed.bare = h.bare := rfl

theorem frame_hushed (h : Host) : h.hushed.frame = h.frame := rfl

theorem bare_of_hushed (hsame : h.hushed = k.hushed) : h.bare = k.bare := by
  rw [← bare_hushed h, hsame, bare_hushed]

theorem started_hushed (h : Host) : h.hushed.started = h.started := by
  unfold started hushed
  rw [List.filterMap_filter]
  congr 1
  funext e
  cases e <;> rfl

theorem hushed_noting (hsame : h.hushed = k.hushed) (events : List Event) :
    (Act.noting h events).hushed = (Act.noting k events).hushed := by
  have hjournal := congrArg Host.journal hsame
  have hbare := congrArg (fun x : Host => ({ x with journal := (Act.noting k events).hushed.journal } : Host)) hsame
  refine Eq.trans ?_ hbare
  simp only [hushed, Act.noting, List.filter_append] at hjournal ⊢
  rw [hjournal]

theorem hushed_left (hsame : h.hushed = k.hushed) (c : Command) : (c.left h).hushed = (c.left k).hushed := by
  have hleft : ∀ x : Host, c.left x = Act.noting { x with
      files := (c.left x.bare).files, answered := (c.left x.bare).answered } [.started c] := by
    intro x
    have hfiles := congrArg Host.files (Command.bare_left c x)
    have hanswered := congrArg Host.answered (Command.bare_left c x)
    rw [Command.left_eq]
    exact congrArg₂ (fun f a => ({ x with files := f, answered := a, journal := x.journal ++ [.started c] } : Host))
      hfiles hanswered
  rw [hleft h, hleft k, bare_of_hushed hsame]
  apply hushed_noting
  exact congrArg (fun x : Host => ({ x with
    files := (c.left k.bare).files, answered := (c.left k.bare).answered } : Host)) hsame

end Host

namespace Act

theorem hushed_noting_out (h : Host) (line : String) : (noting h [.out line]).hushed = h.hushed := by
  unfold noting Host.hushed
  simp only [List.filter_append]
  exact congrArg (fun events => ({ h with journal := events } : Host)) (List.append_nil _)

def warned (d : Display) (warnings : List String) : List Event :=
  warnings.map fun w => .err (d.shown (Level.warning.line w))

theorem isPrint_of_mem_warned (d : Display) (warnings : List String) : ∀ e ∈ warned d warnings, IsPrint e := by
  intro e he
  obtain ⟨w, -, rfl⟩ := List.mem_map.1 he
  trivial

theorem on_forM_warning : ∀ (warnings : List String) (h : Host),
    (warnings.forM Console.warning).on h = (.ok (), noting h (warned h.display warnings))
  | [], h => by
    rw [warned, List.map_nil, noting, List.append_nil]
    rfl
  | w :: warnings, h => by
    have hfirst : (Console.warning w).on h = (.ok (), noting h [.err (h.display.shown (Level.warning.line w))]) := rfl
    have hrest := on_forM_warning warnings (noting h [.err (h.display.shown (Level.warning.line w))])
    have hboth : ((w :: warnings).forM Console.warning).on h = _ := (on_bind_ok hfirst).trans hrest
    rw [hboth]
    simp [noting, warned]

end Act

namespace Build

variable {c : BuildConfig} {f : Fault} {h k : Host}

/-! ## The warnings of a smoke test -/

/-- The command that imports the installed module. -/
def probeCommand (c : BuildConfig) (h : Host) : Command :=
  { program := versionProbe
    cwd := some c.source.text
    env := some (sourceEnv c.source h)
    timeout := some (.int h.settings.smokeTimeout)
    reads := true }

/-- The warnings about the import, if warnings can be made of what comes of it. -/
def importVerdict (limit : Int) : Except Fault Ended → Except Fault (List String)
  | .ok e => .ok (if e.isSuccess then [] else ["Failed to import mlc_llm"])
  | .error f =>
    if f.isTimeout then .ok ["Importing mlc_llm timed out after " ++ toString limit ++ "s"]
    else if f.isOs then .ok ["Could not run " ++ python ++ ": " ++ f.message]
    else .error f

/-- The import ends with a fault that the smoke test lets through. -/
def Escapes (c : BuildConfig) (h : Host) (f : Fault) : Prop :=
  importVerdict h.settings.smokeTimeout ((probeCommand c h).outcome h) = .error f

/-- The warnings about libraries. -/
def libraryWarnings (c : BuildConfig) (h : Host) (libraries : List (String × List String)) : List String :=
  (libraries.filter fun l => (findLibrary h c.build l.2).isNone).map fun l =>
    l.1 ++ " libraries not found in expected location"

/-- The warnings of a smoke test on a host. -/
def smokeWarnings (c : BuildConfig) (h : Host) : Except Fault (List String) :=
  (importVerdict h.settings.smokeTimeout ((probeCommand c h).outcome h)).map
    (· ++ libraryWarnings c ((probeCommand c h).left h) libraries)

theorem probeCommand_congr (c : BuildConfig) (hframe : h.frame = k.frame) : probeCommand c h = probeCommand c k := by
  have hsame : probeCommand c h.frame = probeCommand c k := by rw [hframe]; rfl
  exact hsame

theorem libraryWarnings_congr (hbare : h.bare = k.bare) (libraries : List (String × List String)) :
    libraryWarnings c h libraries = libraryWarnings c k libraries := by
  have hsame : libraryWarnings c h.bare libraries = libraryWarnings c k libraries := by rw [hbare]; rfl
  exact hsame

theorem importVerdict_congr (hbare : h.bare = k.bare) :
    importVerdict h.settings.smokeTimeout ((probeCommand c h).outcome h) =
      importVerdict k.settings.smokeTimeout ((probeCommand c k).outcome k) := by
  have hlimit : h.bare.settings = k.settings := by rw [hbare]; rfl
  rw [probeCommand_congr c (Host.frame_of_bare hbare), Command.outcome_congr hbare, ← hlimit]
  rfl

theorem smokeWarnings_congr (hbare : h.bare = k.bare) : smokeWarnings c h = smokeWarnings c k := by
  rw [smokeWarnings, smokeWarnings, importVerdict_congr hbare, probeCommand_congr c (Host.frame_of_bare hbare)]
  rw [libraryWarnings_congr (Command.bare_left_congr hbare _)]

theorem smokeWarnings_eq_error_iff : smokeWarnings c h = .error f ↔ Escapes c h f := by
  rw [smokeWarnings, Escapes]
  cases importVerdict h.settings.smokeTimeout ((probeCommand c h).outcome h) with
  | error g => exact Iff.rfl
  | ok warnings => exact iff_of_false nofun nofun

theorem waitFault?_probeCommand (hwait : (probeCommand c h).waitFault? = some f) :
    f = .limitTooLong ∧ longestWait < 1000 * h.settings.smokeTimeout := by
  have hlimit : (if longestWait < 1000 * h.settings.smokeTimeout then some Fault.limitTooLong else none) = some f :=
    hwait
  split at hlimit
  case isTrue htoo =>
    cases hlimit
    exact ⟨rfl, htoo⟩
  case isFalse => cases hlimit

/-- The smoke test lets through that a null character stands in the command, that its limit is too long, that what
it prints is no text, and an interruption. -/
theorem Escapes.cause (hf : Escapes c h f) :
    f = .nullInPath ∨ f = .limitTooLong ∧ longestWait < 1000 * h.settings.smokeTimeout ∨
      (∃ code why files, f = .undecodable why ∧
        h.respond h.answered (probeCommand c h) = .garbled code why files) ∨
      f = .interrupted ∧ h.respond h.answered (probeCommand c h) = .interrupted := by
  rw [Escapes] at hf
  cases hr : (probeCommand c h).outcome h with
  | ok e => rw [hr] at hf; cases hf
  | error g =>
    rw [hr, importVerdict] at hf
    split at hf
    case isTrue => cases hf
    split at hf
    case isTrue => cases hf
    rename_i hintime hos
    cases hf
    cases Command.fails_of_outcome hr with
    | refused e about => cases e <;> exact absurd rfl hos
    | null => exact .inl rfl
    | noWord hword => cases hword
    | unawaited hwait => exact .inr (.inl (waitFault?_probeCommand hwait))
    | unread _ hreply => exact .inr (.inr (.inl ⟨_, _, _, rfl, hreply⟩))
    | overran => exact absurd rfl hintime
    | interrupted hreply => exact .inr (.inr (.inr ⟨rfl, hreply⟩))

/-! ## The smoke test -/

/-- What is made of the end of the import. -/
def judge (limit : Int) : Except Fault Ended → Act (List String)
  | .ok e =>
    if e.isSuccess then do
      let shown := Text.strip e.out
      Console.success ("MLC-LLM version: " ++ if shown = "" then "unknown" else shown)
      return []
    else pure ["Failed to import mlc_llm"]
  | .error f =>
    if f.isTimeout then pure ["Importing mlc_llm timed out after " ++ toString limit ++ "s"]
    else if f.isOs then pure ["Could not run " ++ python ++ ": " ++ f.message]
    else .fail f

theorem on_judge (limit : Int) (r : Except Fault Ended) (h : Host) :
    ∃ k, (judge limit r).on h = (importVerdict limit r, k) ∧ k.hushed = h.hushed := by
  cases r with
  | ok e =>
    cases hsuccess : e.isSuccess <;> simp only [judge, importVerdict, hsuccess]
    · exact ⟨h, rfl, rfl⟩
    · exact ⟨_, rfl, Act.hushed_noting_out _ _⟩
  | error f =>
    refine ⟨h, ?_, rfl⟩
    simp only [judge, importVerdict]
    split
    · rfl
    · split <;> rfl

theorem probe_eq (c : BuildConfig) : probe c =
    get >>= fun h => (probeCommand c h).start.attempt >>= judge h.settings.smokeTimeout := rfl

/-- What comes of the import: warnings, or the fault of which none can be made. -/
theorem on_probe (c : BuildConfig) (h : Host) : ∃ k,
    (probe c).on h = (importVerdict h.settings.smokeTimeout ((probeCommand c h).outcome h), k) ∧
    k.hushed = ((probeCommand c h).left h).hushed := by
  have hattempt := Act.on_attempt (probeCommand c h).start h
  rw [Command.on_start] at hattempt
  obtain ⟨k, hjudge, hk⟩ := on_judge h.settings.smokeTimeout ((probeCommand c h).outcome h) ((probeCommand c h).left h)
  refine ⟨k, ?_, hk⟩
  rw [probe_eq, Act.on_bind_ok (Act.on_get h), Act.on_bind_ok hattempt, hjudge]

theorem on_checkLibrary (c : BuildConfig) (h : Host) (label : String) (candidates : List String) : ∃ k,
    (checkLibrary c label candidates).on h = (.ok (libraryWarnings c h [(label, candidates)]), k) ∧
      k.hushed = h.hushed := by
  rw [checkLibrary, Act.on_bind_ok (Act.on_get h)]
  cases hfound : findLibrary h c.build candidates with
  | some name =>
    refine ⟨_, ?_, Act.hushed_noting_out h (h.display.shown (Level.success.line (label ++ " libraries found")))⟩
    simp [libraryWarnings, hfound]
    rfl
  | none =>
    refine ⟨h, ?_, rfl⟩
    simp [libraryWarnings, hfound]

theorem on_mapM_checkLibrary (c : BuildConfig) : ∀ (libraries : List (String × List String)) (h : Host), ∃ k missing,
    (libraries.mapM fun (label, candidates) => checkLibrary c label candidates).on h = (.ok missing, k) ∧
      missing.flatten = libraryWarnings c h libraries ∧ k.hushed = h.hushed
  | [], h => ⟨h, [], rfl, rfl, rfl⟩
  | (label, candidates) :: libraries, h => by
    obtain ⟨k, hon, hk⟩ := on_checkLibrary c h label candidates
    obtain ⟨k', missing, hon', hmissing, hk'⟩ := on_mapM_checkLibrary c libraries k
    refine ⟨k', libraryWarnings c h [(label, candidates)] :: missing, ?_, ?_, hk'.trans hk⟩
    · rw [List.mapM_cons, Act.on_bind_ok hon, Act.on_bind_ok hon', Act.on_pure]
    · rw [List.flatten_cons, hmissing, libraryWarnings_congr (Host.bare_of_hushed hk)]
      rw [libraryWarnings, libraryWarnings, libraryWarnings, ← List.map_append, ← List.filter_append]
      rfl

/-- The host as a smoke test leaves it, with its warnings printed. -/
def tested (c : BuildConfig) (h : Host) : Host :=
  match smokeWarnings c h with
  | .ok warnings => Act.noting ((probeCommand c h).left h) (Act.warned h.display warnings)
  | .error _ => (probeCommand c h).left h

theorem tested_eq_noting (c : BuildConfig) (h : Host) : ∃ events, (∀ e ∈ events, Act.IsPrint e) ∧
    tested c h = Act.noting ((probeCommand c h).left h) events := by
  unfold tested
  split
  case h_1 warnings _ => exact ⟨_, Act.isPrint_of_mem_warned h.display warnings, rfl⟩
  case h_2 => exact ⟨[], nofun, (Act.noting_nil _).symm⟩

theorem started_tested (c : BuildConfig) (h : Host) : (tested c h).started = h.started ++ [probeCommand c h] := by
  obtain ⟨events, hprint, hhost⟩ := tested_eq_noting c h
  rw [hhost, Host.started_noting _ hprint, Command.started_left]

theorem frame_tested (c : BuildConfig) (h : Host) : (tested c h).frame = h.frame := by
  obtain ⟨events, -, hhost⟩ := tested_eq_noting c h
  rw [hhost, Host.frame_noting, Host.frame_left]

/-- What comes of the smoke test. -/
theorem on_smokeTest (c : BuildConfig) (h : Host) : ∃ k, (smokeTest c).on h = (smokeWarnings c h, k) ∧
    k.hushed = (tested c h).hushed := by
  let k := Act.noting h [.out (h.display.shown (Level.info.line "Running basic validation tests..."))]
  have hinfo : (Console.info "Running basic validation tests...").on h = (.ok (), k) := Act.on_plain _ _
  have hleft : ((probeCommand c k).left k).hushed = ((probeCommand c h).left h).hushed :=
    Host.hushed_left (Act.hushed_noting_out h _) (probeCommand c h)
  obtain ⟨k₁, hprobe, hk₁⟩ := on_probe c k
  have hwarnings : smokeWarnings c k = smokeWarnings c h := smokeWarnings_congr rfl
  rw [tested, ← hwarnings, smokeWarnings]
  rw [smokeTest, Act.on_bind_ok hinfo]
  cases hv : importVerdict k.settings.smokeTimeout ((probeCommand c k).outcome k) with
  | error f =>
    rw [hv] at hprobe
    exact ⟨k₁, Act.on_bind_error hprobe, hk₁.trans hleft⟩
  | ok imported =>
    rw [hv] at hprobe
    obtain ⟨k₂, missing, hlibraries, hmissing, hk₂⟩ := on_mapM_checkLibrary c libraries k₁
    rw [libraryWarnings_congr (Host.bare_of_hushed hk₁)] at hmissing
    have hleft₂ : k₂.hushed = ((probeCommand c h).left h).hushed := (hk₂.trans hk₁).trans hleft
    have hdisplay : k₂.display = h.display := by
      have hsame : k₂.hushed.display = ((probeCommand c h).left h).hushed.display := by rw [hleft₂]
      rw [Command.left_eq] at hsame
      exact hsame
    rw [Act.on_bind_ok hprobe, Act.on_bind_ok hlibraries, ← hmissing]
    have hforM := Act.on_forM_warning (imported ++ missing.flatten) k₂
    rw [hdisplay] at hforM
    rw [Act.on_bind_ok hforM]
    have hwarned := Host.hushed_noting hleft₂ (Act.warned h.display (imported ++ missing.flatten))
    cases (imported ++ missing.flatten).isEmpty with
    | false => exact ⟨_, rfl, hwarned⟩
    | true => exact ⟨_, rfl, (Act.hushed_noting_out _ _).trans hwarned⟩

theorem starts_smokeTest (c : BuildConfig) (h : Host) : (smokeTest c).Starts h [probeCommand c h] := by
  obtain ⟨k, hon, hk⟩ := on_smokeTest c h
  refine Act.starts_of_on hon ?_ ?_
  · rw [← Host.frame_hushed, hk, Host.frame_hushed, frame_tested]
  · rw [← Host.started_hushed, hk, Host.started_hushed, started_tested]

end Build

end CiPipeline
