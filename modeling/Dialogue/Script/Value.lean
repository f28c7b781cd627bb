import Dialogue.Number.Shortest
import Dialogue.Script.Syntax
import Dialogue.Text.Quoted

/-!
# Values of scripts

What a script computes with.  A value is written in three ways.  As printed text, strings stand
as they are; in the form for debugging they are quoted, and so is whatever stands inside an array
or a map.  Text that tells of a value, as the message of a fault does, is like printed text but
quotes characters inside arrays and maps too.
-/

namespace Dialogue.Script

/-- The cells of the variables that a piece of code sees, innermost first. -/
abbrev Environment := List (String × Nat)

/-- Numbers a step apart: the next one, and where they end. -/
inductive Progression where
  | ints (next last step : Int)
  | floats (next last step : Binary64)
  deriving DecidableEq

inductive Value where
  | unit
  | bool (value : Bool)
  | int (value : Int)
  | float (value : Binary64)
  | char (value : Char)
  | string (value : String)
  | array (items : List Value)
  /-- fields in ascending order of their names -/
  | map (fields : List (String × Value))
  | range (first last : Int) (inclusive : Bool)
  | progression (numbers : Progression)
  /-- a function by its name -/
  | function (name : String)
  /-- a function with the cells it shares with the code around it, and the values it starts from
  each time it is called -/
  | closure (params : List String) (body : Stmt) (environment : Environment)
      (copies : List (String × Value))
  /-- a function that is called with some arguments in front -/
  | given (function : Value) (args : List Value)

namespace Value

instance : Inhabited Value := ⟨unit⟩

def typeName : Value → String
  | unit => "()"
  | bool _ => "bool"
  | int _ => "i64"
  | float _ => "f64"
  | char _ => "char"
  | string _ => "string"
  | array _ => "array"
  | map _ => "map"
  | range _ _ true => "range="
  | range _ _ false | progression _ => "range"
  | function _ | closure _ _ _ _ | given _ _ => "Fn"

/-- The name of the type where a value is refused: that of a range tells what is in it. -/
def fullTypeName : Value → String
  | range _ _ true => "core::ops::range::RangeInclusive<i64>"
  | range _ _ false => "core::ops::range::Range<i64>"
  | v => v.typeName

def isUnit : Value → Bool
  | unit => true
  | _ => false

def isCallable : Value → Bool
  | function _ | closure _ _ _ _ | given _ _ => true
  | _ => false

/-! ### Maps -/

/-- Sets a field of a map. -/
def insertField (name : String) (value : Value) : List (String × Value) → List (String × Value)
  | [] => [(name, value)]
  | (n, v) :: rest =>
    if name < n then (name, value) :: (n, v) :: rest
    else if name = n then (name, value) :: rest
    else (n, v) :: insertField name value rest

def ofFields (fields : List (String × Value)) : Value :=
  map (fields.foldl (fun m (n, v) => insertField n v m) [])

/-! ### Values that are written down -/

mutual

def ofLiteral : Literal → Value
  | .unit => unit
  | .bool b => bool b
  | .int n => int n
  | .float x => float x
  | .char c => char c
  | .string s => string s
  | .array items => array (ofLiterals items)
  | .map fields => ofFields (ofLiteralFields fields)
  | .range first last inclusive => range first last inclusive
  | .function name => function name

def ofLiterals : List Literal → List Value
  | [] => []
  | l :: rest => ofLiteral l :: ofLiterals rest

def ofLiteralFields : List (String × Literal) → List (String × Value)
  | [] => []
  | (n, l) :: rest => (n, ofLiteral l) :: ofLiteralFields rest

end

/-! ### Text -/

/-- Numbers that single precision holds between `10^-13` and `10^13` are written without an
exponent, and zero without a sign. -/
def textLayout : Binary64.Layout where
  plainFrom := ⟨99999998245167, -27⟩
  plainTo := ⟨9999999827968, 0⟩
  signedExponent := false
  signedZero := false

/-- Numbers from `10^-4` to below `10^16` are written without an exponent. -/
def debugLayout : Binary64.Layout where
  plainFrom := ⟨1, -4⟩
  plainTo := ⟨pow10 16 - 1, 0⟩
  signedExponent := false
  signedZero := true

def floatText (layout : Binary64.Layout) (x : Binary64) : String :=
  if x.isNaN then "NaN"
  else if x.isFinite then String.ofList (x.text layout)
  else if x.isNegative then "-inf"
  else "inf"

mutual

/-- The form inside an array or a map; characters may be quoted. -/
def inner (quoteChars : Bool) : Value → String
  | unit => "()"
  | bool b => if b then "true" else "false"
  | int n => toString n
  | float x => floatText debugLayout x
  | char c => if quoteChars then Text.quotedBy '\'' [c] else c.toString
  | string s => Text.quoted s
  | array items => "[" ++ innerItems quoteChars items ++ "]"
  | map fields => "#\x7b" ++ innerFields quoteChars fields ++ "\x7d"
  | range first last inclusive =>
    toString first ++ (if inclusive then "..=" else "..") ++ toString last
  | progression _ => "range"
  | function name => "Fn(" ++ name ++ ")"
  | closure _ _ _ _ => "Fn(anon)"
  | given f _ => f.inner quoteChars

def innerItems (quoteChars : Bool) : List Value → String
  | [] => ""
  | [v] => v.inner quoteChars
  | v :: rest => v.inner quoteChars ++ ", " ++ innerItems quoteChars rest

def innerFields (quoteChars : Bool) : List (String × Value) → String
  | [] => ""
  | [(n, v)] => Text.quoted n ++ ": " ++ v.inner quoteChars
  | (n, v) :: rest =>
    Text.quoted n ++ ": " ++ v.inner quoteChars ++ ", " ++ innerFields quoteChars rest

end

/-- The form for debugging. -/
def debug (v : Value) : String := v.inner false

/-- A value on its own, written as `inside` writes it unless it is a plain text or number. -/
def outer (inside : Value → String) : Value → String
  | unit => ""
  | string s => s
  | char c => c.toString
  | float x => floatText textLayout x
  | v => inside v

/-- What is printed, and what joins a text. -/
def text (v : Value) : String := v.outer debug

/-- How a text tells of a value. -/
def told (v : Value) : String := v.outer (inner true)

end Value

/-! ### Values out of place -/

/-- Why a value cannot be used the way it is used. -/
inductive ValueFault where
  | wrongType (found expected : String)
  | outOfArray (size : Nat) (index : Int)
  | outOfString (size : Nat) (index : Int)
  | outOfBits (index : Int)
  | noItems (type key : String)
  | noItemSetter (type key value : String)
  | noGetter (name type : String)
  | noSetter (name type value : String)
  | noLoop
  | zeroStep
  deriving DecidableEq, Repr

namespace ValueFault

/-- How many items there are, in words. -/
def itemCount (size : Nat) (one many empty : String) : String :=
  match size with
  | 0 => empty
  | 1 => "only 1 " ++ one
  | n => s!"only {n} {many}"

def message : ValueFault → String
  | wrongType found expected => s!"Data type incorrect: {found} (expecting {expected})"
  | outOfArray size index =>
    s!"Array index {index} out of bounds: " ++
      itemCount size "element in array" "elements in array" "array is empty"
  | outOfString size index =>
    s!"String index {index} out of bounds: " ++
      itemCount size "character in string" "characters in string" "string is empty"
  | outOfBits index =>
    s!"Bit-field index {index} out of bounds: " ++ itemCount 64 "" "bits in bit-field" ""
  | noItems type key => s!"Indexer unavailable: {type} [{key}]"
  | noItemSetter type key value => s!"Indexer unavailable: {type} [{key}] = {value}"
  | noGetter name type =>
    s!"Unknown property '{name}' - a getter is not registered for type '{type}'"
  | noSetter name type value =>
    s!"No writable property '{name}' - a setter is not registered for type '{type}'" ++
      s!" to handle '{value}'"
  | noLoop => "For loop expects iterable type"
  | zeroStep => "step value cannot be zero"

end ValueFault

end Dialogue.Script
