import Dialogue.Script.Value

/-!
# Parts of values

A part of a value is reached by a list of keys: names of properties, and indices of arrays,
maps, strings and the bits of integers.  `isHeld` tells which parts a value holds itself; the
others, such as a field that a map does not have, are only answers.
-/

namespace Dialogue.Script

/-- A step into a value, with the place where it is written. -/
inductive Key where
  | property (name : String) (pos : Pos)
  /-- an index, with the place where it begins and that of its bracket -/
  | item (key : Value) (pos bracket : Pos)

/-- Why a part is not there, and where it was asked for. -/
structure PartFault where
  fault : ValueFault
  pos : Pos

namespace Value

/-- The position an index stands for; a negative one counts from the end. -/
def position? (size : Nat) (index : Int) : Option Nat :=
  let i := if index < 0 then index + size else index
  if 0 ≤ i ∧ i < size then some i.toNat else none

/-- The bit of an integer at a position. -/
def bit (n : Int) (i : Nat) : Bool := (BitVec.ofInt 64 n).getLsbD i

/-- An integer with another bit at a position. -/
def setBit (n : Int) (i : Nat) (b : Bool) : Int :=
  let mask := BitVec.twoPow 64 i
  let bits := BitVec.ofInt 64 n
  (if b then bits ||| mask else bits &&& ~~~mask).toInt

/-- The item at a key, or the fault with what misses the key told apart from what has no items. -/
def item (v key : Value) : Except ValueFault Value :=
  match v, key with
  | array items, int n =>
    match (position? items.length n).bind (items[·]?) with
    | some x => .ok x
    | none => .error (.outOfArray items.length n)
  | string s, int n =>
    match (position? s.length n).bind (s.toList[·]?) with
    | some c => .ok (char c)
    | none => .error (.outOfString s.length n)
  | int m, int n =>
    match position? 64 n with
    | some i => .ok (.bool (bit m i))
    | none => .error (.outOfBits n)
  | map fields, string n => .ok ((fields.lookup n).getD unit)
  | array _, k | string _, k | int _, k => .error (.wrongType k.fullTypeName "i64")
  | map _, k => .error (.wrongType k.fullTypeName "string")
  | v, k => .error (.noItems v.typeName k.typeName)

/-- The property of a name. -/
def property (v : Value) (name : String) : Except ValueFault Value :=
  match v, name with
  | map fields, n => .ok ((fields.lookup n).getD unit)
  | array items, "len" => .ok (int items.length)
  | string s, "len" => .ok (int s.length)
  | v, n => .error (.noGetter n v.typeName)

/-- The part at a key.  A value without items is a fault of the bracket, any other of the key. -/
def part (v : Value) : Key → Except PartFault Value
  | .property n pos => (v.property n).mapError (⟨·, pos⟩)
  | .item k pos bracket =>
    match v.item k with
    | .ok x => .ok x
    | .error f@(.noItems _ _) => .error ⟨f, bracket⟩
    | .error f => .error ⟨f, pos⟩

/-- Whether the part at a key, if there is one, is held by the value itself. -/
def isHeld (v : Value) (key : Key) : Bool :=
  match v, key with
  | map fields, .property n _ | map fields, .item (string n) _ _ => (fields.lookup n).isSome
  | _, .item _ _ _ => true
  | _, .property _ _ => false

/-- Whether several keys lead to an item or a field that is held in an array or a map. -/
def hasParts (v : Value) : List Key → Bool
  | [] => true
  | key :: rest =>
    match v, v.part key with
    | array _, .ok x | map _, .ok x => v.isHeld key && x.hasParts rest
    | _, _ => false

/-- The part that several keys lead to. -/
def parts (v : Value) (keys : List Key) : Except PartFault Value := keys.foldlM part v

/-- Puts a value in the place of the part at a key; `pos` is the place of the assignment. -/
def setPart (v : Value) (key : Key) (new : Value) (pos : Pos) : Except PartFault Value :=
  match v, key with
  | map fields, .property n _ | map fields, .item (string n) _ _ =>
    .ok (map (insertField n new fields))
  | map _, .item k keyPos _ => .error ⟨.wrongType k.fullTypeName "string", keyPos⟩
  | array items, .item (int n) keyPos _ =>
    match position? items.length n with
    | some i => .ok (array (items.set i new))
    | none => .error ⟨.outOfArray items.length n, keyPos⟩
  | string s, .item (int n) keyPos _ =>
    match position? s.length n, new with
    | some i, char c => .ok (string (String.ofList (s.toList.set i c)))
    | some _, _ => .error ⟨.wrongType new.fullTypeName "char", pos⟩
    | none, _ => .error ⟨.outOfString s.length n, keyPos⟩
  | int m, .item (int n) keyPos _ =>
    match position? 64 n, new with
    | some i, .bool b => .ok (int (setBit m i b))
    | some _, _ => .error ⟨.wrongType new.fullTypeName "bool", pos⟩
    | none, _ => .error ⟨.outOfBits n, keyPos⟩
  | array _, .item k keyPos _ | string _, .item k keyPos _ | int _, .item k keyPos _ =>
    .error ⟨.wrongType k.fullTypeName "i64", keyPos⟩
  | v, .property n keyPos => .error ⟨.noSetter n v.typeName new.typeName, keyPos⟩
  | v, .item k _ bracket => .error ⟨.noItemSetter v.typeName k.typeName new.typeName, bracket⟩

/-- Puts a value in the place of the part that several keys lead to. -/
def setParts (v : Value) (keys : List Key) (new : Value) (pos : Pos) :
    Except PartFault Value :=
  match keys with
  | [] => .ok new
  | key :: rest => do v.setPart key (← (← v.part key).setParts rest new pos) pos

end Value

end Dialogue.Script
