import Dialogue.Json.Decoder
import Dialogue.Text.Blank

/-!
# Flags

A dialogue remembers things in flags: a truth value, a number or a text under a key, either for
itself or for all dialogues.  Numbers can be changed by an amount, and any flag can be compared.
-/

namespace Dialogue

open Json (Cause Decoder)

/-- Whose flag it is: the dialogue's own, or one that all dialogues see. -/
inductive Scope where
  | own
  | global
  deriving DecidableEq, Repr, Inhabited

namespace Scope

def names : List (String × Scope) := [("local", own), ("global", global)]

def text : Scope → String
  | own => "local"
  | global => "global"

def decoder : Decoder Scope := .name names

end Scope

/-- Which way an amount changes a flag. -/
inductive Change where
  | add
  | sub
  deriving DecidableEq, Repr

namespace Change

def names : List (String × Change) := [("add", add), ("sub", sub)]

def text : Change → String
  | add => "add"
  | sub => "sub"

def decoder : Decoder Change := .name names

end Change

inductive Comparison where
  | eq
  | ne
  | gt
  | lt
  deriving DecidableEq, Repr

namespace Comparison

def names : List (String × Comparison) := [("eq", eq), ("ne", ne), ("gt", gt), ("lt", lt)]

def text : Comparison → String
  | eq => "eq"
  | ne => "ne"
  | gt => "gt"
  | lt => "lt"

def symbol : Comparison → String
  | eq => "=="
  | ne => "!="
  | gt => ">"
  | lt => "<"

/-- A comparison is written as a symbol, by its short name or in words, with blanks around. -/
def ofText? (s : String) : Option Comparison :=
  let word := String.ofList (Text.trim s.toList)
  if word ∈ ["==", "eq", "same"] then some eq
  else if word ∈ ["!=", "ne", "not_same"] then some ne
  else if word ∈ [">", "gt", "more_than"] then some gt
  else if word ∈ ["<", "lt", "less_than"] then some lt
  else none

def decoder : Decoder Comparison := .name names

end Comparison

/-- What a flag holds. -/
inductive FlagValue where
  | bool (value : Bool)
  | number (value : Binary64)
  | text (value : String)
  deriving DecidableEq, Repr

namespace FlagValue

def typeName : FlagValue → String
  | bool _ => "boolean"
  | number _ => "number"
  | text _ => "string"

def encode : FlagValue → Json
  | bool b => .bool b
  | number x => .float x
  | text s => .string s

/-- The flag value a JSON value stands for.  The three shapes exclude each other. -/
def ofJson : Json → Except Cause FlagValue
  | .bool b => .ok (bool b)
  | .int n => .ok (number (Binary64.ofInt n))
  | .float x => .ok (number x)
  | .string s => .ok (text s)
  | _ => .error (.noVariant "FlagValue")

def decoder : Decoder FlagValue := .viaValue ofJson

end FlagValue

end Dialogue
