import Dialogue.Number.Shortest

/-!
# JSON values

A JSON value keeps what its text says: the order of an object's fields, repeated names, and
whether a number is a whole number that fits a machine word.
-/

namespace Dialogue

inductive Json where
  | null
  | bool (value : Bool)
  | int (value : Int)
  | float (value : Binary64)
  | string (value : String)
  | array (items : List Json)
  | object (fields : List (String × Json))
  deriving Inhabited

namespace Json

/-- A text, or `null` where there is none. -/
def ofText? : Option String → Json
  | none => .null
  | some s => .string s

/-- A number that may be missing. -/
def ofNat? : Option Nat → Json
  | none => .null
  | some n => .int n

def ofTexts (texts : List String) : Json := .array (texts.map .string)

/-- The value of the last field of that name. -/
def get? (name : String) : Json → Option Json
  | .object fields => (fields.reverse.find? (·.1 == name)).map (·.2)
  | _ => none

/-- Fields in the order of their names, by code point; of two of one name the later stays. -/
def insertField (name : String) (value : Json) :
    List (String × Json) → List (String × Json)
  | [] => [(name, value)]
  | (n, v) :: rest =>
    if name < n then (name, value) :: (n, v) :: rest
    else if name = n then (name, value) :: rest
    else (n, v) :: insertField name value rest

mutual

/-- The same value with the fields of every object in the order of their names. -/
def sorted : Json → Json
  | .array items => .array (sortedItems items)
  | .object fields => .object (sortedFields fields [])
  | other => other

def sortedItems : List Json → List Json
  | [] => []
  | item :: rest => item.sorted :: sortedItems rest

def sortedFields : List (String × Json) → List (String × Json) → List (String × Json)
  | [], done => done
  | (name, value) :: rest, done => sortedFields rest (insertField name value.sorted done)

end

end Json

end Dialogue
