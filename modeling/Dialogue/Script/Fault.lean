import Dialogue.Script.Operators

/-!
# Faults of a running script

A fault has a cause and a place, and it gathers the calls that it goes through on its way out.
Running out of operations or of room for calls is no part of what a script does: such a fault
cannot be caught, and it gathers no calls.
-/

namespace Dialogue.Script

/-- Why a script failed. -/
inductive Cause where
  /-- a value that was thrown -/
  | raised (value : Value)
  /-- the name of a function and the types of its arguments -/
  | noFunction (signature : String)
  | arithmetic (fault : ArithmeticFault)
  | misused (fault : ValueFault)
  | unbound (name : String)
  /-- a part of a constant was assigned to -/
  | constantChanged (name : String)
  /-- a method that changes its object was called on a constant -/
  | constantObject (method : String)
  | noObject
  /-- a variable was looked at while steps were taken into it -/
  | variableInUse
  | tooManyCalls
  | tooManyOperations

namespace Cause

/-- Nothing that a script can catch. -/
def isFinal : Cause → Bool
  | tooManyCalls | tooManyOperations => true
  | _ => false

def message : Cause → String
  | raised .unit | raised (.string "") => "Runtime error"
  | raised v => "Runtime error: " ++ v.told
  | noFunction signature => "Function not found: " ++ signature
  | arithmetic f => f.message
  | misused f => f.message
  | unbound n => "Variable not found: " ++ n
  | constantChanged n => "Cannot modify constant " ++ n
  | constantObject m => s!"Non-pure method '{m}' cannot be called on constant"
  | noObject => "'this' not bound"
  | variableInUse => "Data race detected"
  | tooManyCalls => "Stack overflow"
  | tooManyOperations => "Too many operations"

/-- The kind of the cause, as a script that catches it sees it. -/
def name : Cause → String
  | raised _ => "ErrorRuntime"
  | noFunction _ => "ErrorFunctionNotFound"
  | arithmetic _ | misused .zeroStep => "ErrorArithmetic"
  | misused (.wrongType _ _) => "ErrorMismatchDataType"
  | misused (.outOfArray _ _) => "ErrorArrayBounds"
  | misused (.outOfString _ _) => "ErrorStringBounds"
  | misused (.outOfBits _) => "ErrorBitFieldBounds"
  | misused (.noItems _ _) | misused (.noItemSetter _ _ _) => "ErrorIndexingType"
  | misused (.noGetter _ _) | misused (.noSetter _ _ _) => "ErrorDotExpr"
  | misused .noLoop => "ErrorFor"
  | unbound _ => "ErrorVariableNotFound"
  | constantChanged _ => "ErrorAssignmentToConstant"
  | constantObject _ => "ErrorNonPureMethodCallOnConstant"
  | noObject => "ErrorUnboundThis"
  | variableInUse => "ErrorDataRace"
  | tooManyCalls => "ErrorStackOverflow"
  | tooManyOperations => "ErrorTooManyOperations"

/-- What else a script that catches the cause sees of it. -/
def details : Cause → List (String × Value)
  | noFunction signature => [("function", .string signature)]
  | misused (.wrongType found expected) =>
    [("requested", .string expected), ("actual", .string found)]
  | misused (.outOfArray size index) | misused (.outOfString size index) =>
    [("length", .int size), ("index", .int index)]
  | misused (.outOfBits index) => [("length", .int 64), ("index", .int index)]
  | misused (.noItems type key) => [("type", .string s!"{type} [{key}]")]
  | misused (.noItemSetter type key value) =>
    [("type", .string s!"{type} [{key}] = {value}")]
  | c@(misused (.noGetter _ _)) | c@(misused (.noSetter _ _ _)) =>
    [("property", .string c.message)]
  | unbound n | constantChanged n => [("variable", .string n)]
  | variableInUse => [("variable", .string "")]
  | constantObject m => [("function", .string m)]
  | _ => []

/-- The type of an argument, as it is named in the signature of a function. -/
def argumentType (v : Value) : String :=
  match v with
  | .string _ => "&str | ImmutableString | String"
  | v => v.typeName

/-- No function takes these arguments. -/
def noFunctionFor (name : String) (args : List Value) : Cause :=
  noFunction (name ++ " (" ++ ", ".intercalate (args.map argumentType) ++ ")")

end Cause

/-- What was called when a fault went through. -/
inductive Callee where
  | function (name : String)
  | closure
  /-- a function of the language, which is in no unit -/
  | language (name : String)

namespace Callee

/-- How a message goes on after a call that a fault at `place` went through. -/
def text (unit place : String) : Callee → String
  | function name => s!" @ '{unit}'{place}\nin call to function '{name}' (from '{unit}')"
  | closure => s!" @ '{unit}'{place}\nin closure call (from '{unit}')"
  | language name => s!"\nin call to function '{name}'"

/-- The name of what was called. -/
def name : Callee → String
  | function name | language name => name
  | closure => "anon"

/-- The unit that holds what was called. -/
def source (unit : String) : Callee → String
  | function _ | closure => unit
  | language _ => ""

end Callee

structure Fault where
  cause : Cause
  /-- the calls gone through, innermost first, and where the fault was inside each -/
  calls : List (Callee × Option Pos) := []
  /-- where the fault is now -/
  pos : Option Pos

namespace Fault

/-- The fault outside of a call. -/
def through (f : Fault) (callee : Callee) (pos : Option Pos) : Fault :=
  if f.cause.isFinal then { f with pos }
  else { f with calls := f.calls ++ [(callee, f.pos)], pos }

def placeText : Option Pos → String
  | none => ""
  | some pos => s!" ({pos.text})"

/-- The message without the last place. -/
def messageIn (unit : String) (f : Fault) : String :=
  f.calls.foldl (fun s (callee, pos) => s ++ callee.text unit (placeText pos)) f.cause.message

def text (unit : String) (f : Fault) : String := f.messageIn unit ++ placeText f.pos

/-- What a script that catches the fault gets: the value thrown, or a description. -/
def caught (unit : String) (f : Fault) : Value :=
  match f.cause with
  | .raised v => v
  | _ =>
    let place :=
      match f.pos with
      | some p => [("line", .int p.line), ("position", .int p.column)]
      | none => []
    let seen :=
      match f.calls.getLast? with
      | some (callee, _) =>
        [("error", .string "ErrorInFunctionCall"), ("function", .string callee.name),
          ("source", .string (callee.source unit))]
      | none => ("error", .string f.cause.name) :: f.cause.details
    .ofFields (("message", .string (f.messageIn unit)) :: ("source", .string unit) :: place ++ seen)

end Fault

end Dialogue.Script
