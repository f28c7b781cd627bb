import Dialogue.Script.Value
import Dialogue.Text.Capital

/-!
# Functions of the language

The functions that only compute a value from their arguments.
-/

namespace Dialogue.Script.Builtin

open Value (int)

/-- Numbers a step apart, if the step leads anywhere. -/
def progression (numbers : Progression) (stays : Bool) : Except ValueFault Value :=
  if stays then .error .zeroStep else .ok (.progression numbers)

/-- What a function of the language answers, if there is one for these arguments. -/
def answer? (name : String) (args : List Value) : Option (Except ValueFault Value) :=
  match name, args with
  | "type_of", [v] => some (.ok (.string v.typeName))
  | "to_string", [v] => some (.ok (.string v.text))
  | "to_debug", [v] => some (.ok (.string v.debug))
  | "len", [.string s] => some (.ok (int s.length))
  | "len", [.array items] => some (.ok (int items.length))
  | "len", [.map fields] => some (.ok (int fields.length))
  | "to_upper", [.string s] => some (.ok (.string (Text.inCapitals s)))
  | "to_upper", [.char c] =>
    match Text.capital c with
    | [d] => some (.ok (.char d))
    | _ => some (.ok (.char c))
  | "range", [.int a, .int b] => some (.ok (.range a b false))
  | "range", [.int a, .int b, .int step] | "range", [.range a b false, .int step] =>
    some (progression (.ints a b step) (step = 0))
  | "range", [.float a, .float b, .float step] =>
    some (progression (.floats a b step) ((a + step).same a))
  | "remove", [.string _, .string _] | "remove", [.string _, .char _] => some (.ok .unit)
  | _, _ => none

end Dialogue.Script.Builtin
