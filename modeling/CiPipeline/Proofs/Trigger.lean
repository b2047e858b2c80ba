import CiPipeline.Proofs.Command
import CiPipeline.Trigger.Environment

/-
The trigger of a run from its surroundings: `fromEnv_resolves`. Each field is what it is set to, or else
what the environment has, or else its default. Only if neither sets the ref is the checkout asked for
it, and for the commit after that. But the two answers are not kept apart: without the second the first
is lost (`reported_ref_lost`).
-/

namespace CiPipeline

namespace TriggerRequest

variable {α : Type} {read : Value → Except FieldProblem α} {default a b : α} {field v : Option Value}

/-- What a field is set to, if it is set and can be read. -/
def explicit? (read : Value → Except FieldProblem α) (field : Option Value) : Option α :=
  (set? field).bind fun v => (read v).toOption

/-- If a field is set, it can be read. -/
def Reads (read : Value → Except FieldProblem α) (field : Option Value) : Prop :=
  ∀ v, set? field = some v → ∃ a, read v = .ok a

theorem readOr_or (hreads : Reads read field) (hv : readOr read default v = .ok b) :
    readOr read default ((set? field).or v) = .ok ((explicit? read field).getD b) := by
  unfold explicit?
  cases hset : set? field with
  | none => exact hv
  | some w =>
    obtain ⟨a, ha⟩ := hreads w hset
    rw [Option.some_or, Option.bind_some, readOr, ha]
    rfl

theorem reads_of_readOr (h : readOr read default ((set? field).or v) = .ok a) : Reads read field := by
  intro w hw
  rw [hw, Option.some_or, readOr] at h
  exact ⟨a, h⟩

/-- A field that is set is not null. -/
theorem ne_null_of_set? {w : Value} (h : set? field = some w) : w ≠ .null := by
  unfold set? at h
  rintro rfl
  cases (Option.filter_eq_some_iff.1 h).2

theorem readOptionalText_of_ne_null {w : Value} (h : w ≠ .null) : readOptionalText w = (readText w).map some := by
  cases w with
  | null => exact absurd rfl h
  | _ => rfl

theorem explicit?_readOptionalText (s : Option String) :
    (explicit? readOptionalText field).getD s = (explicit? readText field).or s := by
  unfold explicit?
  cases hset : set? field with
  | none => rfl
  | some w =>
    rw [Option.bind_some, Option.bind_some, readOptionalText_of_ne_null (ne_null_of_set? hset)]
    cases readText w <;> rfl

/-- All fields that are set can be read. -/
structure Readable (o : TriggerRequest) : Prop where
  ref : Reads readText o.ref
  event : Reads readText o.event
  sha : Reads readOptionalText o.sha
  defaultBranch : Reads readText o.defaultBranch
  forceBuild : Reads readBoolean o.forceBuild

theorem trigger_eq_ok {r : TriggerRequest} {branch : String} {t : Trigger} :
    r.trigger branch = .ok t ↔ readRef r.ref = .ok ⟨t.ref, t.ref_trimmed, t.ref_ne_empty⟩ ∧
      readOr readText "push" r.event = .ok t.event ∧ readOr readOptionalText none r.sha = .ok t.sha ∧
      readOr readText branch r.defaultBranch = .ok t.defaultBranch ∧
      readOr readBoolean false r.forceBuild = .ok t.forceBuild := by
  unfold trigger
  constructor
  · intro h
    simp only at h
    split at h
    · rename_i href hevent hsha hbranch hforce
      cases h
      exact ⟨href, hevent, hsha, hbranch, hforce⟩
    · cases h
  · rintro ⟨href, hevent, hsha, hbranch, hforce⟩
    rw [href, hevent, hsha, hbranch, hforce]

/-- A request in which all but the default branch has a value. -/
def full (ref event : String) (sha branch : Option String) (force : Bool) : TriggerRequest where
  ref := some (.text ref)
  event := some (.text event)
  sha := some ((sha.map .text).getD .null)
  defaultBranch := branch.map .text
  forceBuild := some (.bool force)

section

variable {ref event branch : String} {sha branch? : Option String} {force : Bool} {o : TriggerRequest} {t : Trigger}

theorem readRef_text {s : String} {r : { r : String // Text.strip r = r ∧ r ≠ "" }} :
    readRef (some (.text s)) = .ok r ↔ r.1 = Text.strip s := by
  obtain ⟨r, htrimmed, hne⟩ := r
  simp only [readRef, readText]
  split
  · rename_i hblank
    exact iff_of_false nofun fun hr => hne (hr.trans hblank)
  · rw [Except.ok.injEq, Subtype.mk.injEq, eq_comm]

theorem ref_or (hreads : Reads readText o.ref) :
    (set? o.ref).or (some (.text ref)) = some (.text ((explicit? readText o.ref).getD ref)) := by
  unfold explicit?
  cases hset : set? o.ref with
  | none => rfl
  | some w =>
    obtain ⟨a, ha⟩ := hreads w hset
    cases w with
    | text s => rfl
    | _ => cases ha

/-- What a request asks for that overrides another one. -/
theorem full_overridden (ho : o.Readable) :
    ((full ref event sha branch? force).overriddenBy o).trigger branch = .ok t ↔
      t.ref = Text.strip ((explicit? readText o.ref).getD ref) ∧ (explicit? readText o.event).getD event = t.event ∧
      (explicit? readText o.sha).or sha = t.sha ∧
      (explicit? readText o.defaultBranch).getD (branch?.getD branch) = t.defaultBranch ∧
      (explicit? readBoolean o.forceBuild).getD force = t.forceBuild := by
  have hsha : readOr readOptionalText none (some ((sha.map .text).getD .null)) = .ok sha := by cases sha <;> rfl
  have hbranch : readOr readText branch (branch?.map .text) = .ok (branch?.getD branch) := by cases branch? <;> rfl
  rw [trigger_eq_ok]
  simp only [overriddenBy, full]
  rw [ref_or ho.ref, readRef_text, readOr_or ho.event (b := event) rfl, readOr_or ho.sha hsha,
    readOr_or ho.defaultBranch hbranch, readOr_or ho.forceBuild (b := force) rfl, explicit?_readOptionalText]
  simp only [Except.ok.injEq]

theorem readable_of_full (h : ((full ref event sha branch? force).overriddenBy o).trigger branch = .ok t) :
    o.Readable := by
  rw [trigger_eq_ok] at h
  simp only [overriddenBy, full] at h
  refine ⟨?_, reads_of_readOr h.2.1, reads_of_readOr h.2.2.1, reads_of_readOr h.2.2.2.1, reads_of_readOr h.2.2.2.2⟩
  intro w hw
  have href := h.1
  rw [hw, Option.some_or, readRef] at href
  cases hread : readText w with
  | ok a => exact ⟨a, rfl⟩
  | error e => rw [hread] at href; cases href

end

end TriggerRequest

/-! ## What the checkout says -/

namespace Git

/-- The command of a query. -/
def asking (words : List String) : Command := { program := .words ("git" :: words), reads := true }

/-- What comes of a query without a null character in it. -/
theorem on_query {words : List String} (hwords : words.any Text.hasNull = false) (h : Host) :
    (query words).on h = (((asking words).ending (h.respond h.answered (asking words)) >>= fun e =>
      if e.isSuccess then .ok (Text.strip e.out) else .error (.commandFailed (asking words).program e.code)),
        (asking words).left h) := by
  have hgit : Text.hasNull "git" = false := by decide
  have hnull : ("git" :: words).any Text.hasNull = false := by rw [List.any_cons, hgit, hwords]; rfl
  have houtcome : (asking words).outcome h = (asking words).ending (h.respond h.answered (asking words)) :=
    Command.outcome_of_answered (Command.refusal?_words hnull h)
  rw [query, Act.on_bind, ← asking, Command.on_demand, houtcome]
  cases (asking words).ending (h.respond h.answered (asking words)) with
  | error f => rfl
  | ok e => cases hsuccess : e.isSuccess <;> simp [hsuccess, bind, Except.bind]

/-- The ref that the checkout reports. -/
def reported? (h : Host) : Option String := (Act.on currentRef h).1.toOption

/-- The commit that the checkout reports, when it has been asked for the ref. -/
def commit? (h : Host) : Option String := (Act.on headSha (Act.on currentRef h).2).1.toOption

end Git

namespace Trigger

variable {env : Dict String} {o : TriggerRequest} {h h' : Host} {t : Trigger}

open TriggerRequest Git

/-- The ref that is asked for: the one that is set, or else that of the environment. -/
def asked? (env : Dict String) (o : TriggerRequest) : Option String :=
  (explicit? readText o.ref).or (Settings.given? env "GITHUB_REF")

/-- The ref where there is no checkout. -/
def fallback (env : Dict String) (h : Host) : String :=
  branchRefs ++ (Settings.given? env "MLCPIPE_DEFAULT_BRANCH").getD h.settings.defaultBranch

/-- The ref that the checkout gives: the one that it reports, unless no commit is known then. -/
def checkedOut (env : Dict String) (h : Host) : String :=
  match reported? h with
  | none => fallback env h
  | some r => if Settings.given? env "GITHUB_SHA" = none ∧ commit? h = none then fallback env h else r

/-- The commit, as far as it is not set. -/
def commitOf (env : Dict String) (h : Host) : Option String :=
  (Settings.given? env "GITHUB_SHA").or (if reported? h = none then none else commit? h)

/-- What the environment says about forcing a run. -/
def forceOf (env : Dict String) : Bool :=
  yesWords.contains (Text.lowerAscii (Text.strip ((env.get? "MLCPIPE_FORCE_BUILD").getD "")))

/-- What is known of a trigger, with a ref and a commit. -/
def known (env : Dict String) (ref : String) (sha : Option String) : TriggerRequest :=
  full ref ((env.get? "GITHUB_EVENT_NAME").getD "push") sha (Settings.given? env "MLCPIPE_DEFAULT_BRANCH") (forceOf env)

theorem ofEnv_eq (env : Dict String) :
    ofEnv env = known env ((env.get? "GITHUB_REF").getD "") (Settings.given? env "GITHUB_SHA") := rfl

/-- Whether a fault is one that git has where there is no checkout. -/
def isUncheckedOut (f : Fault) : Bool := f.isCommandFailed || f.isNotFound

theorem onDefaultBranch_ofEnv (env : Dict String) (h : Host) :
    (ofEnv env).onDefaultBranch h.settings = known env (fallback env h) (Settings.given? env "GITHUB_SHA") := by
  rw [ofEnv_eq]
  simp only [onDefaultBranch, known, full, fallback, Option.map_map]
  cases Settings.given? env "MLCPIPE_DEFAULT_BRANCH" <;> rfl

theorem given?_ne_empty {name s : String} (h : Settings.given? env name = some s) : s ≠ "" :=
  of_decide_eq_true (Option.filter_eq_some_iff.1 h).2

/-- The commit is asked for if the environment has none. -/
theorem on_fromCheckout_reported {r : String} {h₁ : Host} (hr : Act.on currentRef h = (.ok r, h₁)) :
    Act.on (ofEnv env).fromCheckout h =
      match Settings.given? env "GITHUB_SHA" with
      | some s => (.ok (known env r (some s)), h₁)
      | none => ((Act.on headSha h₁).1.map fun s => known env r (some s), (Act.on headSha h₁).2) := by
  rw [fromCheckout, Act.on_bind_ok hr, ofEnv_eq]
  cases hsha : Settings.given? env "GITHUB_SHA" with
  | some s =>
    have hgiven : (known env ((env.get? "GITHUB_REF").getD "") (some s)).sha.filter Value.isGiven = some (.text s) := by
      simp [known, full, Option.filter, Value.isGiven, given?_ne_empty hsha]
    rw [hgiven]
    rfl
  | none =>
    have hnone : (known env ((env.get? "GITHUB_REF").getD "") none).sha.filter Value.isGiven = none := rfl
    rw [hnone]
    simp only [map_eq_pure_bind, bind_assoc, pure_bind]
    rw [Act.on_bind]
    rcases Act.on headSha h₁ with ⟨f | s, h₂⟩
    · rfl
    · rfl

/-- What is known of a trigger when the checkout has been asked. -/
def fromGit (env : Dict String) (settings : Settings) : Act TriggerRequest :=
  (ofEnv env).fromCheckout.recover isUncheckedOut fun _ => pure ((ofEnv env).onDefaultBranch settings)

theorem on_fromGit_error {f : Fault} (hx : Act.on (ofEnv env).fromCheckout h = (.error f, h')) :
    Act.on (fromGit env h.settings) h =
      if isUncheckedOut f then (.ok (known env (fallback env h) (Settings.given? env "GITHUB_SHA")), h')
      else (.error f, h') := by
  rw [fromGit, Act.on_recover_error hx, onDefaultBranch_ofEnv]
  rfl

/-- The checkout gives a ref and a commit, unless git has a fault of its own. -/
theorem on_fromGit (env : Dict String) (h : Host) :
    (∃ h', Act.on (fromGit env h.settings) h = (.ok (known env (checkedOut env h) (commitOf env h)), h')) ∨
    ∃ f h', Act.on (fromGit env h.settings) h = (.error f, h') ∧ isUncheckedOut f = false ∧
      ((Act.on currentRef h).1 = .error f ∨ (Act.on headSha (Act.on currentRef h).2).1 = .error f) := by
  rcases hr : Act.on currentRef h with ⟨f | r, h₁⟩
  · have hreported : reported? h = none := by rw [reported?, hr]; rfl
    have hcheckedOut : checkedOut env h = fallback env h := by rw [checkedOut, hreported]
    have hcommit : commitOf env h = Settings.given? env "GITHUB_SHA" := by
      rw [commitOf, if_pos hreported, Option.or_none]
    have hx : Act.on (ofEnv env).fromCheckout h = (.error f, h₁) := Act.on_bind_error hr
    rw [on_fromGit_error hx, hcheckedOut, hcommit]
    cases hf : isUncheckedOut f with
    | false => exact .inr ⟨f, h₁, rfl, hf, .inl rfl⟩
    | true => exact .inl ⟨h₁, rfl⟩
  · have hreported : reported? h = some r := by rw [reported?, hr]; rfl
    have hcommit? : commit? h = (Act.on headSha h₁).1.toOption := by rw [commit?, hr]
    have hx : Act.on (ofEnv env).fromCheckout h = _ := on_fromCheckout_reported hr
    cases hsha : Settings.given? env "GITHUB_SHA" with
    | some s =>
      have hcheckedOut : checkedOut env h = r := by simp [checkedOut, hreported, hsha]
      have hcommit : commitOf env h = some s := by rw [commitOf, hsha, Option.some_or]
      rw [hsha] at hx
      rw [fromGit, Act.on_recover_ok hx, hcheckedOut, hcommit]
      exact .inl ⟨h₁, rfl⟩
    | none =>
      have hcommit : commitOf env h = commit? h := by simp [commitOf, hreported, hsha]
      rw [hsha] at hx
      simp only at hx
      rcases hc : Act.on headSha h₁ with ⟨f | c, h₂⟩
      · have hnone : commit? h = none := by rw [hcommit?, hc]; rfl
        have hcheckedOut : checkedOut env h = fallback env h := by simp [checkedOut, hreported, hsha, hnone]
        rw [hc] at hx
        have hfault : Act.on (ofEnv env).fromCheckout h = (.error f, h₂) := hx
        rw [on_fromGit_error hfault, hcheckedOut, hcommit, hnone, hsha]
        cases hf : isUncheckedOut f with
        | false => exact .inr ⟨f, h₂, rfl, hf, .inr rfl⟩
        | true => exact .inl ⟨h₂, rfl⟩
      · have hsome : commit? h = some c := by rw [hcommit?, hc]; rfl
        have hcheckedOut : checkedOut env h = r := by simp [checkedOut, hreported, hsome]
        rw [hc] at hx
        have hboth : Act.on (ofEnv env).fromCheckout h = (.ok (known env r (some c)), h₂) := hx
        rw [fromGit, Act.on_recover_ok hboth, hcheckedOut, hcommit, hsome]
        exact .inl ⟨h₂, rfl⟩

theorem on_fromEnv_unasked (hn : (ofEnv env).needsCheckout o = false) :
    (fromEnv env o).on h = ((((ofEnv env).overriddenBy o).trigger h.settings.defaultBranch).mapError .trigger, h) := by
  unfold fromEnv
  rw [Act.on_bind_ok (Act.on_get h)]
  simp only [hn, Bool.false_eq_true, if_false, pure_bind]
  exact Act.on_ofExcept _ _ _

theorem on_fromEnv_asked (hn : (ofEnv env).needsCheckout o = true) :
    (fromEnv env o).on h =
      match Act.on (fromGit env h.settings) h with
      | (.error f, h') => (.error f, h')
      | (.ok r, h') => (((r.overriddenBy o).trigger h.settings.defaultBranch).mapError .trigger, h') := by
  have hon : (fromEnv env o).on h = Act.on (fromGit env h.settings >>= fun r =>
      Act.ofExcept .trigger ((r.overriddenBy o).trigger h.settings.defaultBranch)) h := by
    unfold fromEnv
    rw [Act.on_bind_ok (Act.on_get h)]
    simp only [hn, if_true]
    rfl
  rw [hon, Act.on_bind]
  rcases Act.on (fromGit env h.settings) h with ⟨f | r, h₁⟩
  · rfl
  · exact Act.on_ofExcept _ _ _

/-- The checkout is asked for the ref exactly if it is neither set nor in the environment. -/
theorem needsCheckout_iff (hreads : Reads readText o.ref) :
    (ofEnv env).needsCheckout o = true ↔ asked? env o = none := by
  have hset : (set? o.ref).isNone = true ↔ explicit? readText o.ref = none := by
    unfold explicit?
    cases hset : set? o.ref with
    | none => exact iff_of_true rfl rfl
    | some w =>
      obtain ⟨a, ha⟩ := hreads w hset
      rw [Option.bind_some, ha]
      exact iff_of_false nofun nofun
  have henv : (!(ofEnv env).ref.any Value.isGiven) = true ↔ Settings.given? env "GITHUB_REF" = none := by
    have hany : (ofEnv env).ref.any Value.isGiven = ((env.get? "GITHUB_REF").getD "" != "") := rfl
    rw [hany, Settings.given?]
    cases hget : env.get? "GITHUB_REF" with
    | none => exact iff_of_true rfl rfl
    | some s => simp [Option.filter]
  rw [needsCheckout, Bool.and_eq_true, hset, henv, asked?, Option.or_eq_none_iff, and_comm]

theorem asked?_ne_none (hreads : Reads readText o.ref) (hn : (ofEnv env).needsCheckout o = false) :
    asked? env o ≠ none := by
  rw [ne_eq, ← needsCheckout_iff hreads, hn]
  exact Bool.false_ne_true

theorem get?_of_given? {name s : String} (hgiven : Settings.given? env name = some s) : (env.get? name).getD "" = s := by
  rw [(Option.filter_eq_some_iff.1 hgiven).1]
  rfl

/-- A ref that is asked for is the same for every one that could be known otherwise. -/
theorem getD_asked? (hasked : asked? env o ≠ none) (r : String) :
    (explicit? readText o.ref).getD ((env.get? "GITHUB_REF").getD "") = (asked? env o).getD r := by
  unfold asked? at hasked ⊢
  cases hexplicit : explicit? readText o.ref with
  | some s => rfl
  | none =>
    rw [hexplicit, Option.none_or] at hasked
    obtain ⟨s, hs⟩ := Option.ne_none_iff_exists'.1 hasked
    rw [Option.none_or, hs, get?_of_given? hs]
    rfl

theorem getD_not_asked? (hasked : asked? env o = none) (r : String) :
    (explicit? readText o.ref).getD r = (asked? env o).getD r := by
  rw [hasked, (Option.or_eq_none_iff.1 hasked).1]

/-- Where the precedence is kept: a ref that is reported is not lost, as a commit is known; and where
there is no ref, the default branch is not set. -/
def Kept (env : Dict String) (o : TriggerRequest) (h : Host) : Prop :=
  asked? env o = none →
    (reported? h ≠ none → Settings.given? env "GITHUB_SHA" ≠ none ∨ commit? h ≠ none) ∧
    (reported? h = none → explicit? readText o.defaultBranch = none)

/-- How the fields of a trigger are resolved. -/
structure Resolved (env : Dict String) (o : TriggerRequest) (h : Host) (t : Trigger) (h' : Host) : Prop where
  ref : t.ref = Text.strip ((asked? env o).getD (checkedOut env h))
  kept : Kept env o h → t.ref = Text.strip (((asked? env o).or (reported? h)).getD (branchRefs ++ t.defaultBranch))
  sha : t.sha = ((explicit? readText o.sha).or (Settings.given? env "GITHUB_SHA")).or
    (if asked? env o = none ∧ reported? h ≠ none then commit? h else none)
  event : t.event = ((explicit? readText o.event).or (env.get? "GITHUB_EVENT_NAME")).getD "push"
  defaultBranch : t.defaultBranch =
    ((explicit? readText o.defaultBranch).or (Settings.given? env "MLCPIPE_DEFAULT_BRANCH")).getD h.settings.defaultBranch
  forceBuild : t.forceBuild = (explicit? readBoolean o.forceBuild).getD (forceOf env)
  unasked : asked? env o ≠ none → h' = h

theorem mapError_eq_ok {α ε ε' : Type} {x : Except ε α} {f : ε → ε'} {a : α} : x.mapError f = .ok a ↔ x = .ok a := by
  cases x with
  | ok b =>
    show Except.ok b = .ok a ↔ _
    rw [Except.ok.injEq, Except.ok.injEq]
  | error e =>
    show Except.error (f e) = .ok a ↔ _
    simp only [reduceCtorEq]

/-- What a trigger is made of: a ref and a commit that are known, and the overrides. -/
theorem exists_known (hon : (fromEnv env o).on h = (.ok t, h')) :
    o.Readable ∧ ∃ ref sha, ((known env ref sha).overriddenBy o).trigger h.settings.defaultBranch = .ok t ∧
      (asked? env o = none → ref = checkedOut env h ∧ sha = commitOf env h) ∧
      (asked? env o ≠ none → ref = (env.get? "GITHUB_REF").getD "" ∧ sha = Settings.given? env "GITHUB_SHA" ∧ h' = h) := by
  cases hn : (ofEnv env).needsCheckout o with
  | false =>
    rw [on_fromEnv_unasked hn, Prod.mk.injEq, mapError_eq_ok, ofEnv_eq] at hon
    have ho := readable_of_full hon.1
    exact ⟨ho, _, _, hon.1, fun hnone => absurd hnone (asked?_ne_none ho.ref hn), fun _ => ⟨rfl, rfl, hon.2.symm⟩⟩
  | true =>
    rw [on_fromEnv_asked hn] at hon
    rcases on_fromGit env h with ⟨h₁, hgit⟩ | ⟨f, h₁, hgit, -⟩
    · rw [hgit, Prod.mk.injEq, mapError_eq_ok] at hon
      have ho := readable_of_full hon.1
      exact ⟨ho, _, _, hon.1, fun _ => ⟨rfl, rfl⟩, fun hasked => absurd ((needsCheckout_iff ho.ref).1 hn) hasked⟩
    · rw [hgit] at hon
      cases hon

theorem checkedOut_eq {r : String} (hr : reported? h = some r)
    (hcommit : Settings.given? env "GITHUB_SHA" ≠ none ∨ commit? h ≠ none) : checkedOut env h = r := by
  simp only [checkedOut, hr]
  exact if_neg fun hnone => hcommit.elim (fun hne => hne hnone.1) fun hne => hne hnone.2

/-- A trigger that is made is resolved. -/
theorem resolved (hon : (fromEnv env o).on h = (.ok t, h')) : Resolved env o h t h' := by
  obtain ⟨ho, ref, sha, htrigger, hnone, hsome⟩ := exists_known hon
  obtain ⟨href, hevent, hsha, hbranch, hforce⟩ := (full_overridden ho).1 htrigger
  have hresolved : t.ref = Text.strip ((asked? env o).getD (checkedOut env h)) := by
    rw [href]
    by_cases hasked : asked? env o = none
    · rw [(hnone hasked).1, getD_not_asked? hasked]
    · rw [(hsome hasked).1, getD_asked? hasked]
  refine ⟨hresolved, fun hkept => ?_, ?_, ?_, ?_, hforce.symm, fun hasked => (hsome hasked).2.2⟩
  · rw [hresolved]
    cases hasked : asked? env o with
    | some r => rfl
    | none =>
      obtain ⟨hlost, hstray⟩ := hkept hasked
      rw [Option.none_or, Option.getD_none]
      cases hreported : reported? h with
      | some r => rw [checkedOut_eq hreported (hlost (by rw [hreported]; nofun))]; rfl
      | none =>
        rw [← hbranch, hstray hreported, checkedOut, hreported]
        rfl
  · rw [← hsha]
    by_cases hasked : asked? env o = none
    · rw [(hnone hasked).2, commitOf, Option.or_assoc]
      by_cases hreported : reported? h = none
      · rw [if_pos hreported, if_neg fun h => h.2 hreported]
      · rw [if_neg hreported, if_pos ⟨hasked, hreported⟩]
    · rw [(hsome hasked).2.1, if_neg fun h => hasked h.1, Option.or_none]
  · rw [← hevent]
    cases explicit? readText o.event <;> rfl
  · rw [← hbranch]
    cases explicit? readText o.defaultBranch <;> rfl

/-! ## Answers of git -/

/-- Every command ends, or its program is not found. -/
def Answers (h : Host) : Prop :=
  ∀ cs c, (∃ code out err files, h.respond cs c = .ended code out err files) ∨ h.respond cs c = .refused .noEntry

/-- An act whose faults are those that git has where there is no checkout. -/
def Civil {α : Type} (x : Act α) : Prop :=
  ∀ h, Answers h → (∀ f, (x.on h).1 = .error f → isUncheckedOut f = true) ∧ Answers (x.on h).2

theorem civil_pure {α : Type} (a : α) : Civil (pure a : Act α) := fun _ hanswers => ⟨nofun, hanswers⟩

theorem Civil.bind {α β : Type} {x : Act α} {f : α → Act β} (hx : Civil x) (hf : ∀ a, Civil (f a)) : Civil (x >>= f) := by
  intro h hanswers
  have hfirst := hx h hanswers
  rw [Act.on_bind]
  rcases hon : x.on h with ⟨e | a, h₁⟩
  · rw [hon] at hfirst
    exact ⟨fun f hf => hfirst.1 f (by cases hf; rfl), hfirst.2⟩
  · rw [hon] at hfirst
    exact hf a h₁ hfirst.2

theorem Civil.recover {α : Type} {x : Act α} (hx : Civil x) {deal : Fault → Act α} (hdeal : ∀ f, Civil (deal f))
    (kind : Fault → Bool) : Civil (x.recover kind deal) := by
  intro h hanswers
  have hfirst := hx h hanswers
  rcases hon : x.on h with ⟨e | a, h₁⟩
  · rw [hon] at hfirst
    rw [Act.on_recover_error hon]
    split
    · exact hdeal e h₁ hfirst.2
    · exact hfirst
  · rw [hon] at hfirst
    rw [Act.on_recover_ok hon]
    exact hfirst

theorem civil_query {words : List String} (hwords : words.any Text.hasNull = false) : Civil (query words) := by
  intro h hanswers
  have hleft : Answers ((asking words).left h) := by
    unfold Answers
    rw [Command.respond_left]
    exact hanswers
  rw [on_query hwords]
  refine ⟨fun f hf => ?_, hleft⟩
  rcases hanswers h.answered (asking words) with ⟨code, out, err, files, hr⟩ | hr
  · have hended : (asking words).ending (.ended code out err files) = .ok ⟨code, out, err⟩ := rfl
    rw [hr, hended] at hf
    change (if Ended.isSuccess ⟨code, out, err⟩ then _ else _) = _ at hf
    split at hf
    · cases hf
    · cases hf
      rfl
  · rw [hr] at hf
    cases hf
    rfl

theorem civil_headSha : Civil headSha := civil_query (by decide)

theorem civil_currentRef : Civil currentRef := by
  unfold currentRef
  refine ((civil_query (by decide)).recover (fun _ => civil_pure _) _).bind fun tag => ?_
  split
  · exact civil_pure _
  · exact (civil_query (by decide)).recover (fun _ => civil_headSha) _

/-- Overrides that can be read give a trigger, unless nothing is left of the ref. -/
theorem exists_trigger (ho : o.Readable) (hanswers : Answers h)
    (hne : Text.strip ((asked? env o).getD (checkedOut env h)) ≠ "") : ∃ t h', (fromEnv env o).on h = (.ok t, h') := by
  -- whatever is known, it is a trigger with the ref that is resolved
  have hbuild : ∀ (ref : String) (sha : Option String),
      (explicit? readText o.ref).getD ref = (asked? env o).getD (checkedOut env h) →
      ∃ t, ((known env ref sha).overriddenBy o).trigger h.settings.defaultBranch = .ok t := by
    intro ref sha href
    rw [← href] at hne
    exact ⟨⟨_, _, _, _, _, Text.strip_strip _, hne⟩, (full_overridden ho).2 ⟨rfl, rfl, rfl, rfl, rfl⟩⟩
  cases hn : (ofEnv env).needsCheckout o with
  | false =>
    rw [on_fromEnv_unasked hn, ofEnv_eq]
    obtain ⟨t, ht⟩ := hbuild _ (Settings.given? env "GITHUB_SHA") (getD_asked? (asked?_ne_none ho.ref hn) _)
    exact ⟨t, h, by rw [ht]; rfl⟩
  | true =>
    have hasked := (needsCheckout_iff ho.ref).1 hn
    rw [on_fromEnv_asked hn]
    rcases on_fromGit env h with ⟨h₁, hgit⟩ | ⟨f, h₁, -, hkind, hf⟩
    · obtain ⟨t, ht⟩ := hbuild (checkedOut env h) (commitOf env h) (getD_not_asked? hasked _)
      exact ⟨t, h₁, by rw [hgit]; simp only [ht]; rfl⟩
    · obtain ⟨hfirst, hanswers'⟩ := civil_currentRef h hanswers
      rw [hf.elim (hfirst f) ((civil_headSha _ hanswers').1 f)] at hkind
      cases hkind

/-- A trigger that is made from an environment has its fields resolved as they are to be. One is made
whenever what is set can be read, git answers or is not there, and the ref is not blank. -/
theorem fromEnv_resolves (env : Dict String) (o : TriggerRequest) (h : Host) :
    (∀ t h', (fromEnv env o).on h = (.ok t, h') → Resolved env o h t h') ∧
    (o.Readable → Answers h → Text.strip ((asked? env o).getD (checkedOut env h)) ≠ "" →
      ∃ t h', (fromEnv env o).on h = (.ok t, h')) :=
  ⟨fun _ _ hon => resolved hon, exists_trigger⟩

end Trigger

namespace Sample

/-- A checkout of a branch without tags, with what comes of the question for its commit. -/
def checkout (commit : Reply) : Host where
  here := ⟨1, []⟩
  clock := ⟨2024, 1, 1, 0, 0, 0⟩
  settings := ⟨"", "", "", "main", 60⟩
  respond := fun _ c =>
    match c.program with
    | .words ["git", "symbolic-ref", "-q", "HEAD"] => .ended 0 "refs/heads/feature\n" "" []
    | .words ["git", "rev-parse", "HEAD"] => commit
    | _ => .ended 128 "" "" []

theorem answers_checkout (code : Int) (out : String) : Trigger.Answers (checkout (.ended code out "" [])) := by
  intro cs c
  simp only [checkout]
  split
  · exact .inl ⟨_, _, _, _, rfl⟩
  · exact .inl ⟨_, _, _, _, rfl⟩
  · exact .inl ⟨_, _, _, _, rfl⟩

end Sample

namespace Trigger

open TriggerRequest

variable {env : Dict String} {o : TriggerRequest} {h : Host} {t : Trigger}

/-- The data of a trigger. -/
def fields (t : Trigger) : String × String × Option String × String × Bool :=
  (t.ref, t.event, t.sha, t.defaultBranch, t.forceBuild)

theorem exists_of_fields (hfields : ((fromEnv env o).on h).1.toOption.map fields = some t.fields) :
    ∃ h', (fromEnv env o).on h = (.ok t, h') := by
  rcases hon : (fromEnv env o).on h with ⟨f | t', h'⟩
  · rw [hon] at hfields
    cases hfields
  · rw [hon] at hfields
    obtain rfl : t' = t := by
      cases t'
      cases t
      cases hfields
      rfl
    exact ⟨h', rfl⟩

/-- A branch with a commit, where the event is set. -/
theorem fromEnv_resolves_sample : ∃ t h',
    (fromEnv {} { event := some (.text "manual") }).on (Sample.checkout (.ended 0 "0123456\n" "" [])) = (.ok t, h') ∧
      Resolved {} { event := some (.text "manual") } (Sample.checkout (.ended 0 "0123456\n" "" [])) t h' := by
  obtain ⟨hresolved, hmade⟩ := fromEnv_resolves {} { event := some (.text "manual") }
    (Sample.checkout (.ended 0 "0123456\n" "" []))
  have ho : TriggerRequest.Readable { event := some (.text "manual") } :=
    ⟨nofun, fun v hv => by cases hv; exact ⟨_, rfl⟩, nofun, nofun, nofun⟩
  have href : Text.strip ((asked? {} { event := some (.text "manual") }).getD
      (checkedOut {} (Sample.checkout (.ended 0 "0123456\n" "" [])))) = "refs/heads/feature" := by decide +kernel
  obtain ⟨t, h', hon⟩ := hmade ho (Sample.answers_checkout _ _) (by rw [href]; decide)
  exact ⟨t, h', hon, hresolved t h' hon⟩

/-- The branch that the checkout reports is not the ref of the trigger, as there is no commit yet. -/
theorem reported_ref_lost : Git.reported? (Sample.checkout (.ended 128 "" "" [])) = some "refs/heads/feature" ∧
    ∃ h', (fromEnv {} {}).on (Sample.checkout (.ended 128 "" "" [])) =
      (.ok ⟨"refs/heads/main", "push", none, "main", false, by rfl, by decide⟩, h') := by
  exact ⟨by decide +kernel, exists_of_fields (by decide +kernel)⟩

end Trigger

end CiPipeline
