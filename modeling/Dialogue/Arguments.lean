import Dialogue.Number.Power

/-!
# Arguments

Options of a command line are written `--name value` or `--name=value`.  A value that is an
argument of its own does not begin with a hyphen, unless it is nothing but a hyphen.  Options
are read up to the first argument that is none; each may be given once.
-/

namespace Dialogue

/-- Why arguments are no command. -/
inductive UsageFault where
  | unknownOption (arg : String)
  | missingValue (option : String)
  | repeatedOption (option : String)
  | missingOption (option : String)
  | badValue (option value : String)
  | missingCommand
  | unknownCommand (arg : String)
  | unexpected (arg : String)
  deriving DecidableEq, Repr

namespace UsageFault

def message : UsageFault → String
  | unknownOption arg => s!"unexpected argument '{arg}' found"
  | missingValue option => s!"a value is required for '--{option}' but none was supplied"
  | repeatedOption option => s!"the argument '--{option}' cannot be used multiple times"
  | missingOption option => s!"the required argument '--{option}' was not provided"
  | badValue option value => s!"invalid value '{value}' for '--{option}'"
  | missingCommand => "a command is required: compile, preview or check"
  | unknownCommand arg => s!"unrecognized command '{arg}'"
  | unexpected arg => s!"unexpected argument '{arg}' found"

end UsageFault

/-- The options given at one place of a command line, with their values. -/
abbrev Options := List (String × String)

namespace Arguments

/-- Looks like an option, and cannot be a value. -/
def isHyphenated (arg : String) : Bool := arg.startsWith "-" && arg != "-"

/-- The name of an option, and the value after an equals sign. -/
def splitOption (arg : String) : String × Option String :=
  let chars := arg.toList.drop 2
  let name := chars.takeWhile (· != '=')
  match chars.dropWhile (· != '=') with
  | _ :: value => (String.ofList name, some (String.ofList value))
  | [] => (String.ofList name, none)

/-- Adds an option to those already given. -/
def add (known : List String) (arg name value : String) (given : Options) :
    Except UsageFault Options :=
  if name ∉ known then .error (.unknownOption arg)
  else if (given.lookup name).isSome then .error (.repeatedOption name)
  else .ok (given ++ [(name, value)])

/-- Reads options up to the first argument that is none. -/
def options (known : List String) (given : Options) :
    List String → Except UsageFault (Options × List String)
  | [] => .ok (given, [])
  | arg :: rest =>
    if !isHyphenated arg || arg == "--" then .ok (given, arg :: rest)
    else if !arg.startsWith "--" then .error (.unknownOption arg)
    else
      match splitOption arg, rest with
      | (name, some value), rest => do options known (← add known arg name value given) rest
      | (name, none), value :: rest =>
        if name ∉ known then .error (.unknownOption arg)
        else if isHyphenated value then .error (.missingValue name)
        else do options known (← add known arg name value given) rest
      | (name, none), [] =>
        .error (if name ∈ known then .missingValue name else .unknownOption arg)

/-- The natural number below `2^64` that a text stands for; a plus sign may stand in front. -/
def natural? (s : String) : Option Nat :=
  let digits :=
    match s.toList with
    | '+' :: rest => rest
    | cs => cs
  if digits.isEmpty || !digits.all Char.isDigit then none
  else
    let n := digits.foldl (fun n c => 10 * n + (c.toNat - '0'.toNat)) 0
    if n < pow2 64 then some n else none

end Arguments

end Dialogue
