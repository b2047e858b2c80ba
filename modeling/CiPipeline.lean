import CiPipeline.Main
import CiPipeline.Script
import CiPipeline.Proofs.Act
import CiPipeline.Proofs.Dict
import CiPipeline.Proofs.Precedence
import CiPipeline.Proofs.Levels
import CiPipeline.Proofs.Run.Calls
import CiPipeline.Proofs.Run.Meaning
import CiPipeline.Proofs.Run.Course
import CiPipeline.Proofs.Run.Solution
import CiPipeline.Proofs.Plan
import CiPipeline.Proofs.Run.Ancestry
import CiPipeline.Proofs.Cycle
import CiPipeline.Proofs.Depth
import CiPipeline.Proofs.Canonical
import CiPipeline.Proofs.Gate
import CiPipeline.Proofs.Reorder
import CiPipeline.Proofs.Run.Reorder
import CiPipeline.Proofs.Run.Journal
import CiPipeline.Proofs.Run.Decision
import CiPipeline.Proofs.Run.Interruption
import CiPipeline.Proofs.Run.Discipline
import CiPipeline.Proofs.Run.Halting
import CiPipeline.Proofs.Run.FailFast
import CiPipeline.Proofs.Run.Containment
import CiPipeline.Proofs.Force
import CiPipeline.Proofs.Release
import CiPipeline.Proofs.Trigger
import CiPipeline.Proofs.ImageTag
import CiPipeline.Proofs.SharedTag
import CiPipeline.Proofs.LatestTag
import CiPipeline.Proofs.Suite.Counting
import CiPipeline.Proofs.Suite.Requirement
import CiPipeline.Proofs.Suite.Report
import CiPipeline.Proofs.Command
import CiPipeline.Proofs.Build.Phase
import CiPipeline.Proofs.Build.Smoke
import CiPipeline.Proofs.Build.Course
import CiPipeline.Proofs.Build.Surfacing
import CiPipeline.Proofs.Build.Untested
import CiPipeline.Proofs.Job
import CiPipeline.Proofs.Step.Directory
import CiPipeline.Proofs.Step.Isolation
import CiPipeline.Proofs.Step.TimeLimit
import CiPipeline.Proofs.Words
import CiPipeline.Proofs.Release.Lines
import CiPipeline.Proofs.Step.Shown
import CiPipeline.Proofs.Lint
import CiPipeline.Proofs.CommandLine
import CiPipeline.Proofs.SemVer
import CiPipeline.Proofs.SemVer.Print
import CiPipeline.Proofs.DefaultBranch
import CiPipeline.Proofs.Prerelease
import CiPipeline.Proofs.Version.Search
import CiPipeline.Proofs.Toolchain.Check
import CiPipeline.Proofs.LevelOrder
import CiPipeline.Proofs.Suite.FailFast
import CiPipeline.Proofs.Aggregate
import CiPipeline.Proofs.Assume
import CiPipeline.Proofs.Plan.Listing
import CiPipeline.Proofs.ModulePath
import CiPipeline.Proofs.Run.Completion
import CiPipeline.Proofs.Countdown
