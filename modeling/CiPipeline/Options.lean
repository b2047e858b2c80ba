import CiPipeline.Text.Integer
import CiPipeline.Text.Search

/-
Options on command lines. An option has a long name; it is a flag or takes a value, which is the
next word, whatever that looks like, or stands behind an equals sign. Names are not abbreviated. A
double hyphen ends the options. Mistakes in the form of the options come before mistakes in their
values, and those before words too many.
-/

namespace CiPipeline

/-- What is wrong with a command line. -/
inductive UsageError
  | noSuchOption
  | badOptionUsage
  | badParameter (message : Option String)
  | usage
  deriving DecidableEq, Repr

/-- The name of the kind of a mistake. -/
def UsageError.name : UsageError → String
  | .noSuchOption => "NoSuchOption"
  | .badOptionUsage => "BadOptionUsage"
  | .badParameter _ => "BadParameter"
  | .usage => "UsageError"

/-- Which options a command has, and whether they may also stand behind other words. -/
structure OptionNames where
  flags : List String
  valued : List String
  interspersed : Bool := true

/-- The options and the other words of a command line, each in order. -/
structure Parsed where
  options : List (String × String) := []
  words : List String := []
  deriving DecidableEq, Repr

namespace Parsed

/-- The options with one more in front. -/
def withOption (name value : String) (p : Parsed) : Parsed := { p with options := (name, value) :: p.options }

/-- The words with one more in front. -/
def withWord (word : String) (p : Parsed) : Parsed := { p with words := word :: p.words }

end Parsed

namespace Options

/-- Whether a word has the form of an option. -/
def isOption (word : String) : Bool := Text.startsWith word "-" && word ≠ "-"

/-- The name in a word, and what stands behind the first equals sign, if there is one. -/
def cut (word : String) : String × Option String :=
  let name := word.toList.takeWhile (· != '=')
  match word.toList.dropWhile (· != '=') with
  | [] => (word, none)
  | _ :: value => (String.ofList name, some (String.ofList value))

/-- Reads a command line. A flag is kept with an empty value. -/
def parse (names : OptionNames) : List String → Except UsageError Parsed
  | [] => .ok {}
  | word :: rest =>
    if word = "--" then .ok { words := rest }
    else if isOption word then
      let name := (cut word).1
      if names.valued.contains name then
        match (cut word).2 with
        | some value => (parse names rest).map (Parsed.withOption name value)
        | none =>
          match rest with
          | value :: more => (parse names more).map (Parsed.withOption name value)
          | [] => .error .badOptionUsage
      else if names.flags.contains name then
        if (cut word).2.isSome then .error .badOptionUsage else (parse names rest).map (Parsed.withOption name "")
      else .error .noSuchOption
    else if names.interspersed then (parse names rest).map (Parsed.withWord word)
    else .ok { words := word :: rest }

/-- The words behind those that look like options, with these; a double hyphen among them is left out. -/
def passed : List String → List String
  | [] => []
  | word :: rest =>
    if word = "--" then rest
    else if isOption word then word :: passed rest
    else word :: rest

end Options

namespace Parsed

/-- All values of an option. -/
def values (p : Parsed) (name : String) : List String := (p.options.filter (·.1 == name)).map (·.2)

/-- The last value of an option. -/
def value? (p : Parsed) (name : String) : Option String := (p.values name).getLast?

/-- Whether a flag is set. -/
def isSet (p : Parsed) (name : String) : Bool := p.options.any (·.1 == name)

/-- The state of a switch with two names, of which the last one counts. -/
def switch (p : Parsed) (on off : String) (default : Bool) : Bool :=
  match (p.options.filter fun o => o.1 == on || o.1 == off).getLast? with
  | some o => o.1 == on
  | none => default

/-- A value that must be one of several words. -/
def choice (p : Parsed) (name : String) (words : List String) : Except UsageError (Option String) :=
  match p.value? name with
  | none => .ok none
  | some w => if words.contains w then .ok (some w) else .error (.badParameter none)

/-- A value that must be a whole number not below one. -/
def count (p : Parsed) (name : String) : Except UsageError (Option Int) :=
  match p.value? name with
  | none => .ok none
  | some w =>
    match Text.integer w with
    | .ok n => if 1 ≤ n then .ok (some n) else .error (.badParameter none)
    | .error _ => .error (.badParameter none)

/-- A value that must not name an existing file. -/
def directory (p : Parsed) (name : String) (isFile : String → Bool) : Except UsageError (Option String) :=
  match p.value? name with
  | none => .ok none
  | some w => if isFile w then .error (.badParameter none) else .ok (some w)

/-- At most `n` words may stand beside the options. -/
def atMost (p : Parsed) (n : Nat) : Except UsageError Unit :=
  if n < p.words.length then .error .usage else .ok ()

end Parsed

end CiPipeline
