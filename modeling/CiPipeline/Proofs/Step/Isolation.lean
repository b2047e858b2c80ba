import CiPipeline.Proofs.Dict
import CiPipeline.Proofs.Step.Course

/-
What crosses into a container. A container run starts the same programs with the same words whatever the
environment of the host is (`programs_container`). `declared_only`: of variables, its words have those that the
job and the step declare, each once, and what they end with is the command as it was given.
-/

namespace CiPipeline

/-! ## Words as values -/

theorem Program.ofValues_texts (words : List String) : Program.ofValues (words.map .text) = .words words := by
  have htexts : (words.map Value.text).mapM Value.text? = some words := by
    induction words with
    | nil => rfl
    | cons w words ih => rw [List.map_cons, List.mapM_cons, ih]; rfl
  rw [ofValues, htexts]

namespace ContainerRun

variable (r : ContainerRun String)

theorem volumeWords_toValues : r.toValues.volumeWords = r.volumeWords.map .text := by
  rw [volumeWords, volumeWords, List.map_flatMap]
  exact List.flatMap_map ..

theorem userWords_toValues : r.toValues.userWords = r.userWords.map .text := by
  unfold userWords
  cases huser : r.user with
  | none => simp [toValues, huser]
  | some u =>
    have hvalue : r.toValues.user = some (Word.toValue u) := congrArg (Option.map Word.toValue) huser
    have hsame : Word.isGiven (Word.toValue u) = Word.isGiven u := rfl
    rw [hvalue, Option.filter_some, Option.filter_some, hsame]
    cases Word.isGiven u <;> rfl

/-- An empty name of a user is as none. -/
theorem userWords_eq : r.userWords = (r.user.filter (· ≠ "")).elim [] fun u => ["--user", u] := by
  unfold userWords
  cases r.user with
  | none => rfl
  | some u =>
    rw [Option.filter_some, Option.filter_some]
    by_cases hu : u = "" <;> simp [hu, Word.isGiven, Word.toValue, Value.isGiven, Word.ofText]

theorem commandWords_toValues (run : String) : r.toValues.commandWords run = (r.commandWords run).map .text := by
  unfold commandWords
  cases hargv : r.argv <;> simp [toValues, hargv, Word.texts, Word.values, Word.ofText, Word.toValue]

/-- The command line of a run stays the same when its words are taken as values. -/
theorem command_toValues (env : Dict Value) (cwd : Option String) (run root : String) :
    r.toValues.command env cwd run root = (r.command env cwd run root).map .text := by
  have htexts : ∀ words : List String, (Word.texts words : List Value) = (Word.texts words : List String).map .text :=
    fun words => (List.map_map ..).symm
  unfold command
  rw [volumeWords_toValues, userWords_toValues, commandWords_toValues, htexts, htexts]
  simp only [List.map_append, List.map_cons]
  rfl

end ContainerRun

namespace Step

variable (s : Step) (j : Job) (root : Path) (h : Host)

/-! ## What a container run starts -/

theorem on_execute_container {r : Except DataError (ContainerRun Value)} (htask : s.work.task = .container r) :
    (s.execute j root).on h = s.probedEnd j h dockerProbe (s.containerMain j root h r) := by
  rw [on_execute, course, htask]
  rfl

theorem started_container {r : Except DataError (ContainerRun Value)} (htask : s.work.task = .container r) :
    ((s.execute j root).on h).2.started = h.started ++ dockerProbe.command ::
      match dockerProbe.verdict h with
      | .ok () => (s.containerMain j root h r).toOption.toList
      | .error _ => [] := by
  rw [on_execute_container s j root h htask]
  exact started_probedEnd dockerProbe (s.containerMain j root h r)

/-- The main command has no word from the environment of the host. -/
theorem program_containerMain (r : Except DataError (ContainerRun Value)) (e : Dict String) :
    (s.containerMain j root { h with env := e } r).map Command.program =
      (s.containerMain j root h r).map Command.program := by
  have hargv : s.containerArgv j root { h with env := e } = s.containerArgv j root h := rfl
  rw [containerMain, containerMain, hargv]
  cases r.mapError .data >>= s.containerArgv j root h <;> rfl

theorem programs_container {r : Except DataError (ContainerRun Value)} (htask : s.work.task = .container r)
    (e : Dict String) : ((s.execute j root).on { h with env := e }).2.started.map Command.program =
      ((s.execute j root).on h).2.started.map Command.program := by
  have hverdict : dockerProbe.verdict { h with env := e } = dockerProbe.verdict h := rfl
  have hstarted : Host.started { h with env := e } = h.started := rfl
  have hmain := program_containerMain s j root h r e
  rw [started_container s j root h htask, started_container s j root { h with env := e } htask, hverdict, hstarted]
  rcases dockerProbe.verdict h with f | ⟨⟩
  · rfl
  · have hmap : ∀ main : Except Fault Command,
        main.toOption.toList.map Command.program = (main.map Command.program).toOption.toList := by
      rintro (f | c) <;> rfl
    rw [List.map_append, List.map_append, List.map_cons, List.map_cons, hmap, hmap, hmain]

/-! ## The words of a container run -/

/-- The options for the variables that a job and a step declare: each variable once, where its name came first,
and with the value of the step if it has one there. -/
def declaredWords (job step : Dict Value) : List String :=
  (distinct (job.keys ++ step.keys)).flatMap fun k =>
    ["-e", k ++ "=" ++ (((step.get? k).or (job.get? k)).getD .null).plain]

theorem envWords_update {job step : Dict Value} (hjob : job.keys.Nodup) (hstep : step.keys.Nodup) :
    ContainerRun.envWords (job.update step) = declaredWords job step := by
  rw [ContainerRun.envWords, Dict.entries_update hjob hstep .null, List.flatMap_map]
  rfl

/-- A step that runs a line for the shell, or words, in a container. -/
def contained (name : String) (what : String ⊕ List String) (r : ContainerRun String) (cwd : Option String)
    (timeout : Option Number) : Step :=
  match what with
  | .inl line => .inContainer name line r cwd timeout
  | .inr words => .withWords name words r cwd timeout

/-- The command line of a container run in terms of what is declared, the repository being at `root`. -/
def declaredLine (what : String ⊕ List String) (r : ContainerRun String) (cwd : Option String) (job : Dict Value)
    (root : String) : List String :=
  ["docker", "run", "--rm"] ++ (if r.mountRepo then ContainerRun.mountWords root cwd else []) ++
    (r.volumes.flatMap fun v => ["-v", v]) ++ declaredWords job r.env ++
    ((r.user.filter (· ≠ "")).elim [] fun u => ["--user", u]) ++
    r.image :: what.elim (fun line => ["sh", "-c", line]) id

variable {j root h}

theorem task_contained (name : String) (what : String ⊕ List String) (r : ContainerRun String) (cwd : Option String)
    (timeout : Option Number) : (contained name what r cwd timeout).work.task =
      .container (.ok { r with argv := what.elim (fun _ => none) some }.toValues) := by
  cases what <;> rfl

theorem command_contained (name : String) (what : String ⊕ List String) (r : ContainerRun String) (cwd : Option String)
    (timeout : Option Number) {job : Dict Value} (hjob : job.keys.Nodup) (hstep : r.env.keys.Nodup) (root : String) :
    { r with argv := what.elim (fun _ => none) some }.command job cwd (contained name what r cwd timeout).run root =
      declaredLine what r cwd job root := by
  have htexts : ∀ words : List String, (Word.texts words : List String) = words := List.map_id
  unfold ContainerRun.command declaredLine
  rw [ContainerRun.userWords_eq, htexts, htexts, envWords_update hjob hstep]
  cases what <;> rfl

theorem program_of_containerMain {s : Step} {r : ContainerRun String} {c : Command}
    (hc : s.containerMain j root h (.ok r.toValues) = .ok c) :
    c.program = .words (r.command j.env s.cwd s.run (h.here.resolve root).text) := by
  have hargv : ∀ mounted : Path, (r.mountRepo = true → mounted = h.here.resolve root) →
      Program.ofValues (r.toValues.command j.env s.cwd s.run mounted.text) =
        .words (r.command j.env s.cwd s.run (h.here.resolve root).text) := by
    intro mounted hmounted
    rw [ContainerRun.command_toValues, Program.ofValues_texts]
    cases hmount : r.mountRepo with
    | true => rw [hmounted hmount]
    | false => simp [ContainerRun.command, ContainerRun.startWords, hmount]
  have hmain : (s.containerArgv j root h r.toValues).map (s.dockerCommand h root) = .ok c := hc
  unfold containerArgv at hmain
  cases hmount : r.mountRepo with
  | false =>
    rw [show r.toValues.mountRepo = false from hmount] at hmain
    cases hmain
    exact hargv root fun hno => by rw [hmount] at hno; cases hno
  | true =>
    rw [show r.toValues.mountRepo = true from hmount, if_pos rfl, Host.resolve] at hmain
    split at hmain
    · cases hmain
    · cases hmain
      exact hargv _ fun _ => rfl

theorem runs_of_ok {s : Step} {r : Except DataError (ContainerRun Value)} {k : Host}
    (htask : s.work.task = .container r) (hok : (s.execute j root).on h = (.ok (), k)) :
    ∃ c, s.containerMain j root h r = .ok c ∧ dockerProbe.verdict h = .ok () := by
  rw [on_execute_container s j root h htask] at hok
  rcases hp : dockerProbe.verdict h with f | ⟨⟩
  · rw [probedEnd_error s j h hp] at hok
    cases hok
  · rw [probedEnd_ok s j h hp] at hok
    cases hmain : s.containerMain j root h r with
    | error f => rw [hmain] at hok; cases hok
    | ok c => exact ⟨c, rfl, rfl⟩

/-- A container run asks for the service and then starts one command at most, and one if it is completed. The
words of that are the declared ones; and none of the words depends on the environment of the host. -/
theorem declared_only (name : String) (what : String ⊕ List String) (r : ContainerRun String) (cwd : Option String)
    (timeout : Option Number) (j : Job) (root : Path) (h : Host) (hjob : j.env.keys.Nodup) (hstep : r.env.keys.Nodup) :
    (∀ e : Dict String,
      (((contained name what r cwd timeout).execute j root).on { h with env := e }).2.started.map Command.program =
        (((contained name what r cwd timeout).execute j root).on h).2.started.map Command.program) ∧
    ∃ mains, (((contained name what r cwd timeout).execute j root).on h).2.started =
        h.started ++ { program := .words ["docker", "--version"] } :: mains ∧
      mains.length ≤ 1 ∧
      ((((contained name what r cwd timeout).execute j root).on h).1 = .ok () → mains ≠ []) ∧
      ∀ c ∈ mains, c.program = .words (declaredLine what r cwd j.env (h.here.resolve root).text) := by
  have htask := task_contained name what r cwd timeout
  refine ⟨programs_container _ j root h htask, _, started_container _ j root h htask, ?_, ?_, ?_⟩
  · split
    · cases containerMain _ j root h _ <;> simp
    · exact Nat.zero_le 1
  · intro hok
    obtain ⟨c, hmain, hp⟩ := runs_of_ok htask (Prod.ext hok rfl)
    rw [hp, hmain]
    exact List.cons_ne_nil c []
  · intro c hc
    split at hc
    · have hcwd : (contained name what r cwd timeout).cwd = cwd := by cases what <;> rfl
      rw [program_of_containerMain (mem_toOption_toList.1 hc), hcwd,
        command_contained name what r cwd timeout hjob hstep]
    · cases hc

end Step

namespace Sample

/-- A job that declares two variables. -/
def tuned : Job := { checks with env := ⟨[("MODE", .text "fast"), ("LEVEL", .number (.int 1))]⟩ }

/-- A container run that declares one of them again, and another one. -/
def leveled : ContainerRun String where
  image := "gcc"
  volumes := ["/cache:/cache"]
  env := ⟨[("LEVEL", .number (.int 3)), ("COLOUR", .text "no")]⟩
  user := some "1000"

/-- A host with a secret in its environment. -/
def confided : Host := { replying fun _ _ => .ended 0 "" "" [] with env := ⟨[("TOKEN", "secret")]⟩ }

end Sample

namespace Step

/-- What the job and the step declare reaches the container, and the secret of the host does not. -/
theorem declared_only_sample : Sample.tuned.env.keys.Nodup ∧ Sample.leveled.env.keys.Nodup ∧ ∃ k main,
    ((contained "compile" (.inr ["make", "all"]) Sample.leveled none none).execute Sample.tuned ⟨1, ["src"]⟩).on
      Sample.confided = (.ok (), k) ∧
    k.started = [{ program := .words ["docker", "--version"] }, main] ∧
    main.program = .words ["docker", "run", "--rm", "-v", "/src:/workspace", "-w", "/workspace", "-v", "/cache:/cache",
      "-e", "MODE=fast", "-e", "LEVEL=3", "-e", "COLOUR=no", "--user", "1000", "gcc", "make", "all"] := by
  have hjob : Sample.tuned.env.keys.Nodup := by decide +kernel
  have hstep : Sample.leveled.env.keys.Nodup := by decide +kernel
  obtain ⟨-, mains, hstarted, hlength, hmains, hwords⟩ := declared_only "compile" (.inr ["make", "all"]) Sample.leveled
    none none Sample.tuned ⟨1, ["src"]⟩ Sample.confided hjob hstep
  obtain ⟨main, rfl⟩ := List.length_eq_one_iff.1 (Nat.le_antisymm hlength (List.length_pos_iff.2 (hmains rfl)))
  refine ⟨hjob, hstep, _, main, rfl, hstarted, (hwords main (List.mem_singleton_self main)).trans ?_⟩
  exact congrArg Program.words (by decide +kernel)

end Step

end CiPipeline
