import CiPipeline.Host

/-
Scripted hosts: rules that say what comes of commands. The first rule that fits a command answers
it; a rule may be good for a number of times only. Without a rule a command succeeds and prints
nothing.
-/

namespace CiPipeline

/-- A rule: which commands it fits, how often, and what comes of them. -/
structure Rule where
  part : String := ""
  without : Option String := none
  times : Option Nat := none
  reply : Reply
  deriving DecidableEq, Repr

namespace Rule

/-- Whether a rule fits a command, given how often it may still be used. -/
def fits (r : Rule) (p : Program) : Bool :=
  Text.includes p.text r.part && !(r.without.any (Text.includes p.text)) && r.times != some 0

/-- The rule after it was used once. -/
def spent (r : Rule) : Rule := { r with times := r.times.map (· - 1) }

end Rule

/-- Rules in the order in which they are tried. -/
abbrev Script := List Rule

namespace Script

/-- The answer to a command. -/
def reply (s : Script) (c : Command) : Reply :=
  ((s.find? fun r => r.fits c.program).map Rule.reply).getD (.ended 0 "" "" [])

/-- The rules after a command was answered. -/
def spend (c : Command) : Script → Script
  | [] => []
  | r :: rs => if r.fits c.program then r.spent :: rs else r :: spend c rs

/-- How a host answers by a script. -/
def respond (s : Script) (answered : List Command) (c : Command) : Reply :=
  (answered.foldl (fun s c => s.spend c) s).reply c

end Script

end CiPipeline
