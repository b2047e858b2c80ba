import CiPipeline.Git

/-
The trigger of a run from its surroundings: what was asked for explicitly comes first, then the
environment of the runner, then the local checkout, and at last the default branch.
-/

namespace CiPipeline

/-- The words of the environment that stand for yes. -/
def yesWords : List String := ["1", "true", "yes", "on"]

namespace TriggerRequest

/-- What the environment says. -/
def ofEnv (env : Dict String) : TriggerRequest where
  ref := some (.text ((env.get? "GITHUB_REF").getD ""))
  event := some (.text ((env.get? "GITHUB_EVENT_NAME").getD "push"))
  sha := some (((Settings.given? env "GITHUB_SHA").map Value.text).getD .null)
  defaultBranch := (Settings.given? env "MLCPIPE_DEFAULT_BRANCH").map .text
  forceBuild :=
    some (.bool (yesWords.contains (Text.lowerAscii (Text.strip ((env.get? "MLCPIPE_FORCE_BUILD").getD "")))))

/-- A field that is there and not null. -/
def set? (field : Option Value) : Option Value :=
  field.filter fun
    | .null => false
    | _ => true

/-- The request with the fields that another one sets. -/
def overriddenBy (r o : TriggerRequest) : TriggerRequest where
  ref := (set? o.ref).or r.ref
  event := (set? o.event).or r.event
  sha := (set? o.sha).or r.sha
  defaultBranch := (set? o.defaultBranch).or r.defaultBranch
  forceBuild := (set? o.forceBuild).or r.forceBuild

/-- The request with ref and commit as the checkout has them; a commit that is known already stays. -/
def fromCheckout (r : TriggerRequest) : Act TriggerRequest := do
  let ref ← Git.currentRef
  let sha ← match r.sha.filter Value.isGiven with
    | some sha => pure sha
    | none => Value.text <$> Git.headSha
  return { r with ref := some (.text ref), sha := some sha }

/-- The request with the default branch as its ref. -/
def onDefaultBranch (r : TriggerRequest) (settings : Settings) : TriggerRequest :=
  let branch := (r.defaultBranch.map Value.plain).getD settings.defaultBranch
  { r with ref := some (.text (Trigger.branchRefs ++ branch)) }

/-- Whether the checkout has to be asked for the ref: neither the environment nor the other request has one. -/
def needsCheckout (r o : TriggerRequest) : Bool :=
  !(r.ref.any Value.isGiven) && (set? o.ref).isNone

end TriggerRequest

/-- The trigger of a run from an environment, with some fields set explicitly. Where version control
is missing or has no answer, the ref is the default branch. -/
def Trigger.fromEnv (env : Dict String) (o : TriggerRequest) : Act Trigger := do
  let settings := (← get).settings
  let known := TriggerRequest.ofEnv env
  let r ←
    if known.needsCheckout o then
      known.fromCheckout.recover (fun f => f.isCommandFailed || f.isNotFound) fun _ =>
        pure (known.onDefaultBranch settings)
    else pure known
  Act.ofExcept .trigger ((r.overriddenBy o).trigger settings.defaultBranch)

end CiPipeline
