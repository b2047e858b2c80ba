import CiPipeline.Proofs.Command
import CiPipeline.Proofs.Text
import CiPipeline.Proofs.Trigger

/-
The trigger outside a checkout: `fromEnv_outside`. If no ref is given and version control is missing or has no
answer, there is a trigger all the same, with the default branch of the environment or the settings as its ref.
That is the default branch of the trigger too, unless this is set to another one, or has blanks at its end,
which the ref loses (`default_branch_missed`).
-/

namespace CiPipeline

namespace Git

/-- Version control is not found, or each query to it ends with another code than nought. -/
def Silent (h : Host) : Prop :=
  ∀ past words, h.respond past (asking words) = .refused .noEntry ∨
    ∃ code out err files, code ≠ 0 ∧ h.respond past (asking words) = .ended code out err files

/-- An act that comes to nothing where version control is silent, and leaves it so. -/
def Fails {α : Type} (x : Act α) : Prop :=
  ∀ h, Silent h → ∃ f h', x.on h = (.error f, h') ∧ Trigger.isUncheckedOut f = true ∧ Silent h'

theorem fails_query {words : List String} (hwords : words.any Text.hasNull = false) : Fails (query words) := by
  intro h hsilent
  have hleft : Silent ((asking words).left h) := by
    unfold Silent
    rw [Command.respond_left]
    exact hsilent
  rw [on_query hwords]
  rcases hsilent h.answered words with hr | ⟨code, out, err, files, hcode, hr⟩
  · rw [hr]
    exact ⟨_, _, rfl, rfl, hleft⟩
  · have hended : (asking words).ending (.ended code out err files) = .ok ⟨code, out, err⟩ := rfl
    have hfailed : Ended.isSuccess ⟨code, out, err⟩ = false := beq_false_of_ne hcode
    rw [hr, hended]
    simp only [bind, Except.bind, hfailed]
    exact ⟨_, _, rfl, rfl, hleft⟩

theorem Fails.recover {α : Type} {x : Act α} (hx : Fails x) {deal : Fault → Act α} (hdeal : ∀ f, Fails (deal f))
    (kind : Fault → Bool) : Fails (x.recover kind deal) := by
  intro h hsilent
  obtain ⟨f, h', hon, hf, hsilent'⟩ := hx h hsilent
  rw [Act.on_recover_error hon]
  split
  · exact hdeal f h' hsilent'
  · exact ⟨f, h', rfl, hf, hsilent'⟩

theorem fails_headSha : Fails headSha := fails_query (by decide)

theorem fails_branchRef : Fails branchRef :=
  (fails_query (by decide)).recover (fun _ => fails_headSha) _

/-- There is no tag, which is not yet an end, and no branch either. -/
theorem fails_currentRef : Fails currentRef := by
  intro h hsilent
  have hdescribe : Fails (query ["describe", "--tags", "--exact-match"]) := fails_query (by decide)
  obtain ⟨f, h', hon, hf, hsilent'⟩ := hdescribe h hsilent
  have htag : exactTag.on h = if f.isCommandFailed then (.ok "", h') else (.error f, h') :=
    Act.on_recover_error hon _ _
  cases hkind : f.isCommandFailed with
  | true =>
    rw [hkind, if_pos rfl] at htag
    obtain ⟨f', h'', hon', hf'⟩ := fails_branchRef h' hsilent'
    exact ⟨f', h'', (Act.on_bind_ok htag).trans hon', hf'⟩
  | false =>
    rw [hkind, if_neg Bool.false_ne_true] at htag
    exact ⟨f, h', Act.on_bind_error htag, hf, hsilent'⟩

end Git

namespace Trigger

open TriggerRequest Git

variable {env : Dict String} {o : TriggerRequest} {h : Host}

/-- The default branch as far as it is not set. -/
def usualBranch (env : Dict String) (h : Host) : String :=
  (Settings.given? env "MLCPIPE_DEFAULT_BRANCH").getD h.settings.defaultBranch

/-- The ref of the default branch loses the blanks at its end. -/
theorem strip_fallback (env : Dict String) (h : Host) :
    Text.strip (fallback env h) = branchRefs ++ Text.trimEnd (usualBranch env h) :=
  Text.strip_append (by rintro c ⟨⟩; decide) (by decide) (by decide) _

theorem on_fromGit_silent (env : Dict String) (hsilent : Silent h) :
    ∃ h', Act.on (fromGit env h.settings) h = (.ok (known env (fallback env h) (Settings.given? env "GITHUB_SHA")), h') := by
  obtain ⟨f, h₁, hon, hf, hsilent'⟩ := fails_currentRef h hsilent
  have hfault : Act.on (ofEnv env).fromCheckout h = (.error f, h₁) := Act.on_bind_error hon
  rw [on_fromGit_error hfault, if_pos hf]
  exact ⟨h₁, rfl⟩

/-- Where no ref is given and version control is silent, there is a trigger whose ref is that of the usual default
branch. It is on its own default branch exactly if this is the usual one without the blanks at its end. -/
theorem fromEnv_outside (env : Dict String) (o : TriggerRequest) (h : Host)
    (henv : Settings.given? env "GITHUB_REF" = none) (href : set? o.ref = none) (ho : o.Readable) (hsilent : Silent h) :
    ∃ t h', (fromEnv env o).on h = (.ok t, h') ∧ t.ref = branchRefs ++ Text.trimEnd (usualBranch env h) ∧
      t.defaultBranch = (explicit? readText o.defaultBranch).getD (usualBranch env h) ∧
      (t.isPrimaryBranch = true ↔ t.defaultBranch = Text.trimEnd (usualBranch env h)) := by
  have hasked : asked? env o = none := by
    rw [asked?, explicit?, href, henv]
    rfl
  have hexplicit : explicit? readText o.ref = none := by
    rw [explicit?, href]
    rfl
  have hne : branchRefs ++ Text.trimEnd (usualBranch env h) ≠ "" := fun hempty =>
    absurd (String.append_eq_empty_iff.1 hempty).1 (by decide)
  have htrimmed : Text.strip (branchRefs ++ Text.trimEnd (usualBranch env h)) =
      branchRefs ++ Text.trimEnd (usualBranch env h) := by
    rw [← strip_fallback, Text.strip_strip]
  obtain ⟨h', hgit⟩ := on_fromGit_silent env hsilent
  rw [on_fromEnv_asked ((needsCheckout_iff ho.ref).2 hasked), hgit]
  refine ⟨⟨_, _, _, _, _, htrimmed, hne⟩, h', Prod.ext (mapError_eq_ok.2 ((full_overridden ho).2 ⟨?_, rfl, rfl, rfl, rfl⟩)) rfl,
    rfl, rfl, ?_⟩
  · rw [hexplicit, Option.getD_none, strip_fallback]
  · rw [isPrimaryBranch, decide_eq_true_eq, String.append_right_inj, eq_comm]

end Trigger

namespace Sample

/-- A host without version control. -/
def bareHost : Host where
  here := ⟨1, []⟩
  clock := ⟨2024, 1, 1, 0, 0, 0⟩
  settings := ⟨"", "", "", "main", 60⟩
  respond := fun _ _ => .refused .noEntry

end Sample

namespace Trigger

open TriggerRequest Git

/-- Without version control, and with the default branch of the environment. -/
theorem fromEnv_outside_sample : Silent Sample.bareHost ∧ ∃ t h',
    (fromEnv ⟨[("MLCPIPE_DEFAULT_BRANCH", "trunk")]⟩ { forceBuild := some (.bool true) }).on Sample.bareHost = (.ok t, h') ∧
      t.ref = "refs/heads/trunk" ∧ t.isPrimaryBranch = true := by
  have hsilent : Silent Sample.bareHost := fun _ _ => .inl rfl
  have ho : TriggerRequest.Readable { forceBuild := some (.bool true) } :=
    ⟨nofun, nofun, nofun, nofun, fun v hv => by cases hv; exact ⟨_, rfl⟩⟩
  have htrim : Text.trimEnd "trunk" = "trunk" := by decide
  obtain ⟨t, h', hon, href, hbranch, hprimary⟩ := fromEnv_outside ⟨[("MLCPIPE_DEFAULT_BRANCH", "trunk")]⟩
    { forceBuild := some (.bool true) } Sample.bareHost (by decide) rfl ho hsilent
  have husual : usualBranch ⟨[("MLCPIPE_DEFAULT_BRANCH", "trunk")]⟩ Sample.bareHost = "trunk" := by decide
  rw [husual, htrim] at href hprimary
  rw [husual] at hbranch
  exact ⟨hsilent, t, h', hon, href, hprimary.2 hbranch⟩

/-- A default branch that is set is not that of the ref; and one with a blank at its end is not the ref without it. -/
theorem default_branch_missed : Silent Sample.bareHost ∧
    (∃ t h', (fromEnv {} { defaultBranch := some (.text "trunk") }).on Sample.bareHost = (.ok t, h') ∧
      t.defaultBranch = "trunk" ∧ t.ref = "refs/heads/main" ∧ t.isPrimaryBranch = false) ∧
    ∃ t h', (fromEnv ⟨[("MLCPIPE_DEFAULT_BRANCH", "main ")]⟩ {}).on Sample.bareHost = (.ok t, h') ∧
      t.defaultBranch = "main " ∧ t.ref = "refs/heads/main" ∧ t.isPrimaryBranch = false := by
  have htrunk : ∃ h', (fromEnv {} { defaultBranch := some (.text "trunk") }).on Sample.bareHost =
      (.ok ⟨"refs/heads/main", "push", none, "trunk", false, by rfl, by decide⟩, h') :=
    exists_of_fields (by decide +kernel)
  have hblank : ∃ h', (fromEnv ⟨[("MLCPIPE_DEFAULT_BRANCH", "main ")]⟩ {}).on Sample.bareHost =
      (.ok ⟨"refs/heads/main", "push", none, "main ", false, by rfl, by decide⟩, h') :=
    exists_of_fields (by decide +kernel)
  obtain ⟨h₁, htrunk⟩ := htrunk
  obtain ⟨h₂, hblank⟩ := hblank
  exact ⟨fun _ _ => .inl rfl, ⟨_, h₁, htrunk, rfl, rfl, by decide⟩, _, h₂, hblank, rfl, rfl, by decide⟩

end Trigger

end CiPipeline
