import CiPipeline.Text.Search

/-
The help pages of the command lines. A page says how a command is called, what it is for, and which
options and commands it has; its lines are no longer than seventy-eight characters.
-/

namespace CiPipeline

/-- How a command is used: what stands behind its name, what it is for, its options and its commands. -/
structure HelpPage where
  words : String := "[OPTIONS]"
  purpose : List String
  options : List String
  commands : List String := []
  deriving DecidableEq, Repr

namespace HelpPage

/-- A part of a page: a title with indented lines, or nothing if there are no lines. -/
def titled (title : String) (lines : List String) : List String :=
  if lines.isEmpty then [] else ["", title ++ ":"] ++ lines.map ("  " ++ ·)

/-- The lines of a page, for a command under its full name. -/
def lines (p : HelpPage) (name : String) : List String :=
  ["Usage: " ++ name ++ " " ++ p.words, ""] ++ p.purpose.map ("  " ++ ·) ++ titled "Options" p.options ++
    titled "Commands" p.commands

/-- The text of a page, for a command under its full name. -/
def text (p : HelpPage) (name : String) : String := Text.join "\n" (p.lines name)

/-! ## The pages -/

/-- The page of the command that holds the others. -/
def group : HelpPage where
  words := "[OPTIONS] COMMAND [ARGS]..."
  purpose := ["mlcpipe: MLC-LLM build, test and release pipeline tooling."]
  options := [
    "--debug  Enable debug mode (show stack traces and detailed output)",
    "--help   Show this message and exit."]
  commands := [
    "build       Configure, compile and install MLC-LLM from source.",
    "entrypoint  Container entrypoint: help, bash, build, test, lint,...",
    "plan        Show which jobs would run for a trigger, without executing...",
    "run         Run the pipeline locally, honouring every job's gate.",
    "tags        Print the container image tags for a trigger.",
    "test        Run MLC-LLM test categories: all, import, deps, library,..."]

/-- The page of running. -/
def run : HelpPage where
  purpose := ["Run the pipeline locally, honouring every job's gate."]
  options := [
    "--workflow TEXT                 Workflow file path (defaults to",
    "                                mlcpipe_workflow.py if present)",
    "--ref TEXT                      Git ref to evaluate (defaults to $GITHUB_REF",
    "                                or the local checkout)",
    "--sha TEXT                      Commit SHA (defaults to $GITHUB_SHA or HEAD)",
    "--event TEXT                    Triggering event name (push, pull_request,",
    "                                ...)",
    "--force-build                   Manual override: run gated jobs even if",
    "                                predecessors failed",
    "--workers INTEGER RANGE         Number of parallel workers per stage  [x>=1]",
    "--fail-fast / --no-fail-fast    Cancel remaining jobs after the first",
    "                                failure  [default: no-fail-fast]",
    "--print-plan / --no-print-plan  Print gate decisions  [default: print-plan]",
    "--help                          Show this message and exit."]

/-- The page of planning. -/
def plan : HelpPage where
  purpose := ["Show which jobs would run for a trigger, without executing anything."]
  options := [
    "--workflow TEXT                 Workflow file path (defaults to",
    "                                mlcpipe_workflow.py if present)",
    "--ref TEXT                      Git ref to evaluate (defaults to $GITHUB_REF",
    "                                or the local checkout)",
    "--sha TEXT                      Commit SHA (defaults to $GITHUB_SHA or HEAD)",
    "--event TEXT                    Triggering event name (push, pull_request,",
    "                                ...)",
    "--force-build                   Manual override: run gated jobs even if",
    "                                predecessors failed",
    "--assume JOB=RESULT             Pretend a job ended with RESULT (repeatable)",
    "--platform [linux|windows|darwin]",
    "                                Host platform to plan for",
    "--help                          Show this message and exit."]

/-- The page of tagging. -/
def tags : HelpPage where
  purpose := ["Print the container image tags for a trigger."]
  options := [
    "--ref TEXT     Git ref to evaluate (defaults to $GITHUB_REF or the local",
    "               checkout)",
    "--sha TEXT     Commit SHA (defaults to $GITHUB_SHA or HEAD)",
    "--event TEXT   Triggering event name (push, pull_request, ...)",
    "--force-build  Manual override: run gated jobs even if predecessors failed",
    "--image TEXT   Image name (defaults to",
    "               $MLCPIPE_REGISTRY/$MLCPIPE_IMAGE_NAME)",
    "--production   Production image tags instead of development ones",
    "--help         Show this message and exit."]

/-- The page of building. -/
def build : HelpPage where
  purpose := ["Configure, compile and install MLC-LLM from source."]
  options := [
    "--build-type [Debug|Release|RelWithDebInfo]",
    "                                Build type  [default: Release]",
    "--jobs INTEGER RANGE            Number of parallel jobs [default: CPU count]",
    "                                [x>=1]",
    "--source-dir DIRECTORY          Source directory [default:",
    "                                $MLC_LLM_SOURCE_DIR or current directory]",
    "--build-dir DIRECTORY           Build directory [default: SOURCE_DIR/build]",
    "--install-prefix TEXT           Install prefix [default: $INSTALL_PREFIX or",
    "                                /usr/local]",
    "--skip-deps                     Skip dependency checks",
    "--skip-submodules               Skip submodule initialization",
    "--skip-tests                    Skip validation tests",
    "--clean                         Clean build directory before building",
    "--debug                         Show commands and stack traces",
    "--help                          Show this message and exit."]

/-- The page of testing. -/
def test : HelpPage where
  words := "[OPTIONS] [[all|import|deps|library|pytest|performance]]"
  purpose := ["Run MLC-LLM test categories: all, import, deps, library, pytest,",
    "performance."]
  options := [
    "--source-dir DIRECTORY  Source directory [default: $MLC_LLM_SOURCE_DIR or",
    "                        current directory]",
    "--coverage              Generate coverage reports",
    "--verbose               Verbose output",
    "--fail-fast             Stop on first failing category",
    "--debug                 Show stack traces",
    "--help                  Show this message and exit."]

end HelpPage

end CiPipeline
