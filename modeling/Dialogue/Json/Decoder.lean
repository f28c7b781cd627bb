import Dialogue.Json.Reader

/-!
# Decoders

A decoder knows one shape of JSON value and reads it in two ways: straight from text, where a
fault has a place, and from a value that has been read already, where it has none.  Text is
decoded as it is read, so of two faults the one that comes first in the text is reported.

A record is read from an object, in any order of the fields, or from a list of the fields'
values in their order of declaration.  What has been read so far is kept in a draft, in which
every field is optional.
-/

namespace Dialogue.Json

structure Decoder (α : Type) where
  /-- from text, with room for so many brackets inside each other -/
  fromText : Nat → Reader α
  /-- from a value -/
  fromValue : Json → Except Cause α

namespace Decoder

open Reader

variable {α β σ : Type}

/-- The value a whole text stands for. -/
def decode (d : Decoder α) (text : String) : Except Fault α :=
  readAll (d.fromText deepest) text

/-- The value that `v` stands for. -/
def decodeValue (d : Decoder α) (v : Json) : Except Fault α :=
  (d.fromValue v).mapError fun c => ⟨c, none⟩

/-! ### Single values -/

/-- A value other than a list or an object that is not the expected one. -/
def mismatch (expected : String) : Reader α := do
  match ← next? with
  | some '[' => failUnplaced (.invalidType .sequence expected)
  | some '\x7b' => failUnplaced (.invalidType .map expected)
  | _ =>
    let v ← value 0
    failUnplaced (.invalidType v.found expected)

/-- Reads any value and then looks at it, so that a fault of the second step has no place. -/
def viaValue (f : Json → Except Cause α) : Decoder α where
  fromText room := do
    match f (← value room) with
    | .ok a => pure a
    | .error c => failUnplaced c
  fromValue := f

/-- Any value. -/
def any : Decoder Json := viaValue .ok

/-- A string, called `expected` in faults. -/
def string (expected : String := "a string") : Decoder String where
  fromText _ := placed do
    match ← next? with
    | none => failHere .endInValue
    | some '"' => Reader.string
    | some _ => mismatch expected
  fromValue
    | .string s => .ok s
    | v => .error (.invalidType v.found expected)

/-- What `v` counts for as a natural number below `2 ^ 64`. -/
def naturalOf (expected : String) : Json → Except Cause Nat
  | .int n => if 0 ≤ n then .ok n.toNat else .error (.invalidValue (.int n) expected)
  | v => .error (.invalidType v.found expected)

/-- A natural number below `2 ^ 64`. -/
def natural (expected : String) : Decoder Nat where
  fromText _ := placed do
    match ← next? with
    | none => failHere .endInValue
    | some '[' | some '\x7b' => mismatch expected
    | some _ =>
      match naturalOf expected (← value 0) with
      | .ok n => pure n
      | .error c => failUnplaced c
  fromValue := naturalOf expected

/-- What `v` counts for as a number. -/
def numberOf : Json → Except Cause Binary64
  | .int n => .ok (Binary64.ofInt n)
  | .float x => .ok x
  | v => .error (.invalidType v.found "f64")

/-- A value that may be `null`. -/
def optional (d : Decoder α) : Decoder (Option α) where
  fromText room := do
    match ← next? with
    | some 'n' => do skip; word ['u', 'l', 'l']; pure none
    | _ => return some (← d.fromText room)
  fromValue
    | .null => .ok none
    | v => some <$> d.fromValue v

/-! ### Lists and maps -/

/-- A list of values of one shape. -/
def list (d : Decoder α) : Decoder (List α) where
  fromText room := placed do
    match ← next?, room with
    | none, _ => failHere .endInValue
    | some '[', 0 => failNext .tooDeep
    | some '[', room + 1 => do skip; closing endList (allItems (d.fromText room) true)
    | some _, _ => mismatch "a sequence"
  fromValue
    | .array vs => vs.mapM d.fromValue
    | v => .error (.invalidType v.found "a sequence")

/-- An object with any keys and values of one shape, called `expected` in faults.  Keys keep
their order and may repeat. -/
def entries (expected : String) (d : Decoder α) : Decoder (List (String × α)) where
  fromText room := placed do
    match ← next?, room with
    | none, _ => failHere .endInValue
    | some '\x7b', 0 => failNext .tooDeep
    | some '\x7b', room + 1 => do
      skip
      let step := fun done name => do
        colon
        return (name, ← d.fromText room) :: done
      return (← closing endObject (allFields step [])).reverse
    | some _, _ => mismatch expected
  fromValue
    | .object fs => fs.mapM fun (name, v) => return (name, ← d.fromValue v)
    | v => .error (.invalidType v.found expected)

/-! ### One of several names -/

/-- The value of a name. -/
def named (names : List (String × α)) (name : String) : Except Cause α :=
  match names.lookup name with
  | some a => .ok a
  | none => .error (.unknownVariant name (names.map (·.1)))

/-- A name, read as a string. -/
def identifier (names : List (String × α)) : Decoder α where
  fromText room := placed do
    match named names (← (string "variant identifier").fromText room) with
    | .ok a => pure a
    | .error c => failUnplaced c
  fromValue v := do named names (← (string "variant identifier").fromValue v)

/-- What `v` stands for where a number also counts as a name, by its place in the list. -/
def numbered (names : List (String × α)) (v : Json) : Except Cause α :=
  match v with
  | .int n =>
    if n < 0 then .error (.invalidType v.found "variant identifier")
    else
      match names[n.toNat]? with
      | some (_, a) => .ok a
      | none => .error (.invalidValue v.found s!"variant index 0 <= i < {names.length}")
  | v => (identifier names).fromValue v

/-- One of several names, as a string or as the only key of an object with the value `null`. -/
def name (names : List (String × α)) : Decoder α where
  fromText room := do
    match ← next?, room with
    | none, _ => failHere .endInValue
    | some '"', _ => (identifier names).fromText room
    | some '\x7b', 0 => failNext .tooDeep
    | some '\x7b', room + 1 => do
      skip
      let a ← (identifier names).fromText room
      colon
      match ← next? with
      | none => failHere .endInValue
      | some 'n' => do skip; word ['u', 'l', 'l']
      | some _ => placed (mismatch "unit")
      match ← next? with
      | some '\x7d' => do skip; pure a
      | some _ => failHere .expectedValue
      | none => failHere .endInObject
    | some _, _ => failNext .expectedValue
  fromValue
    | .string s => named names s
    | .object [(key, v)] => do
      let a ← named names key
      match v with
      | .null | .object [] => pure a
      | v => throw (.invalidType v.found "unit")
    | .object _ => .error (.invalidValue .map "map with a single key")
    | v => .error (.invalidType v.found "string or map")

/-! ### Records -/

/-- A field of a record with the draft `σ`. -/
structure Field (σ : Type) where
  name : String
  /-- the draft has this field -/
  given : σ → Bool
  /-- a list of the fields' values may end before this one -/
  mayEnd : Bool
  fromText : Nat → Reader (σ → σ)
  fromValue : Json → Except Cause (σ → σ)

/-- A count of elements in words. -/
def elements : Nat → String
  | 1 => "1 element"
  | n => s!"{n} elements"

/-- A record as it is named in faults, its fields, and what it is made of. -/
structure Record (α σ : Type) where
  expected : String
  fields : List (Field σ)
  /-- nothing read yet -/
  blank : σ
  finish : σ → Except Cause α

/-- A field by itself: its name, the shape of its value, and what holds where it is missing. -/
structure Slot (β : Type) where
  name : String
  decoder : Decoder β
  absent : Option β := none
  /-- a list of the fields' values may end before this one -/
  mayEnd : Bool := false

namespace Slot

/-- A field that must be there. -/
def required (name : String) (decoder : Decoder β) : Slot β := { name, decoder }

/-- A field that may be missing from an object. -/
def optional (name : String) (decoder : Decoder β) : Slot (Option β) :=
  { name, decoder := decoder.optional, absent := some none }

/-- A field that may be missing and then has this value. -/
def defaulted (name : String) (decoder : Decoder β) (value : β) : Slot β :=
  { name, decoder, absent := some value, mayEnd := true }

/-- The field's value, once all fields have been read. -/
def resolve (slot : Slot β) (given : Option β) : Except Cause β :=
  match given.or slot.absent with
  | some b => .ok b
  | none => .error (.missingField slot.name)

/-- The field of a draft that ends with it. -/
def last (slot : Slot β) : Field (σ × Option β) where
  name := slot.name
  given s := s.2.isSome
  mayEnd := slot.mayEnd
  fromText room := do
    let b ← slot.decoder.fromText room
    return fun s => (s.1, some b)
  fromValue v := do
    let b ← slot.decoder.fromValue v
    return fun s => (s.1, some b)

end Slot

/-- The field of a draft with one more field behind it. -/
def Field.followed (f : Field σ) : Field (σ × β) where
  name := f.name
  given s := f.given s.1
  mayEnd := f.mayEnd
  fromText room := return Prod.map (← f.fromText room) id
  fromValue v := return Prod.map (← f.fromValue v) id

namespace Record

/-- A record without fields. -/
def empty (expected : String) : Record Unit Unit where
  expected
  fields := []
  blank := ()
  finish _ := .ok ()

/-- The record with one more field. -/
def and (r : Record α σ) (slot : Slot β) : Record (α × β) (σ × Option β) where
  expected := r.expected
  fields := r.fields.map Field.followed ++ [slot.last]
  blank := (r.blank, none)
  finish s := do
    let a ← r.finish s.1
    return (a, ← slot.resolve s.2)

/-- The record with its values put together. -/
def map (f : α → β) (r : Record α σ) : Record β σ where
  expected := r.expected
  fields := r.fields
  blank := r.blank
  finish s := f <$> r.finish s

/-- The record as a list, as it is named in faults. -/
def listExpected (r : Record α σ) : String := s!"{r.expected} with {elements r.fields.length}"

def done (r : Record α σ) (s : σ) : Reader α :=
  match r.finish s with
  | .ok a => pure a
  | .error c => failUnplaced c

/-- Reads the value of a key into the draft. -/
def readField (r : Record α σ) (room : Nat) (s : σ) (key : String) : Reader σ :=
  match r.fields.find? (·.name == key) with
  | none => do
    colon
    skipValue
    pure s
  | some f =>
    if f.given s then failUnplaced (.duplicateField key)
    else do
      colon
      return (← f.fromText room) s

/-- Reads the values of the fields from a list; `index` of them have been read. -/
def readItems (r : Record α σ) (room : Nat) : Nat → List (Field σ) → σ → Reader σ
  | _, [], s => pure s
  | index, f :: fs, s => do
    if ← hasItem (index = 0) then readItems r room (index + 1) fs ((← f.fromText room) s)
    else if f.mayEnd then readItems r room (index + 1) fs s
    else failUnplaced (.invalidLength index r.listExpected)

/-- Puts the value of a key into the draft. -/
def putField (r : Record α σ) (s : σ) (entry : String × Json) : Except Cause σ :=
  match r.fields.find? (·.name == entry.1) with
  | none => .ok s
  | some f =>
    if f.given s then .error (.duplicateField entry.1)
    else return (← f.fromValue entry.2) s

/-- Puts the values of the fields from a list into the draft; `tooMany` is the fault of a list
with more values than fields. -/
def putItems (r : Record α σ) (tooMany : Cause) :
    Nat → List (Field σ) → List Json → σ → Except Cause σ
  | _, [], [], s => .ok s
  | _, [], _ :: _, _ => .error tooMany
  | index, f :: fs, [], s =>
    if f.mayEnd then putItems r tooMany index fs [] s
    else .error (.invalidLength index r.listExpected)
  | index, f :: fs, v :: vs, s => do putItems r tooMany (index + 1) fs vs ((← f.fromValue v) s)

/-- A record from the fields of an object. -/
def fromFields (r : Record α σ) (entries : List (String × Json)) : Except Cause α := do
  r.finish (← entries.foldlM r.putField r.blank)

/-- A record from a list of values; `expected` is what a list with too many is not. -/
def fromListed (r : Record α σ) (expected : String) (items : List Json) : Except Cause α := do
  r.finish (← r.putItems (.invalidLength items.length expected) 0 r.fields items r.blank)

/-- A record from a list of values. -/
def fromItems (r : Record α σ) (items : List Json) : Except Cause α :=
  r.fromListed (elements r.fields.length ++ " in sequence") items

/-- A record that is a part of no other value. -/
def ofValue (r : Record α σ) (v : Json) : Except Fault α :=
  let result :=
    match v with
    | .object entries => r.fromFields entries
    | .array items => r.fromListed "fewer elements in array" items
    | v => .error (.invalidType v.found r.expected)
  result.mapError (⟨·, none⟩)

def decoder (r : Record α σ) : Decoder α where
  fromText room := placed do
    match ← next?, room with
    | none, _ => failHere .endInValue
    | some '[', 0 | some '\x7b', 0 => failNext .tooDeep
    | some '[', room + 1 => do
      skip
      closing endList do r.done (← r.readItems room 0 r.fields r.blank)
    | some '\x7b', room + 1 => do
      skip
      closing endObject do r.done (← allFields (r.readField room) r.blank)
    | some _, _ => mismatch r.expected
  fromValue
    | .object entries => r.fromFields entries
    | .array items => r.fromItems items
    | v => .error (.invalidType v.found r.expected)

end Record

/-! ### Tagged records -/

/-- What stands beside the tag. -/
inductive Payload where
  | fields (entries : List (String × Json))
  | items (values : List Json)

/-- A record from what stands beside its tag. -/
def Record.ofPayload (r : Record α σ) : Payload → Except Cause α
  | .fields entries => r.fromFields entries
  | .items values => r.fromItems values

/-- A variant that has nothing beside its tag; further fields are passed over. -/
def bare (a : α) : Payload → Except Cause α
  | .fields _ | .items [] => .ok a
  | .items (v :: vs) => .error (.invalidLength (v :: vs).length (elements 0 ++ " in sequence"))

/-- The tag and the fields of an object with a tag.  Both are collected before the fields are
looked at, so only the tag has a place. -/
structure Tagged (α : Type) where
  tag : Option α := none
  payload : List (String × Json) := []

/-- The name of the field that holds the tag. -/
def tagName : String := "kind"

/-- The variant and what stands beside it, once the whole object has been seen. -/
def Tagged.done (t : Tagged α) : Except Cause (α × Payload) :=
  match t.tag with
  | some variant => .ok (variant, .fields t.payload.reverse)
  | none => .error (.missingField tagName)

/-- Reads the value of a key of an object with a tag. -/
def Tagged.readField (names : List (String × α)) (room : Nat) (t : Tagged α) (key : String) :
    Reader (Tagged α) := do
  if key = tagName then
    if t.tag.isSome then failUnplaced (.duplicateField tagName)
    colon
    return { t with tag := some (← (identifier names).fromText room) }
  else
    colon
    return { t with payload := (key, ← value room) :: t.payload }

/-- Takes in the value of a key of an object with a tag, which `variant` knows. -/
def Tagged.putField (variant : Json → Except Cause α) (t : Tagged α) (entry : String × Json) :
    Except Cause (Tagged α) := do
  if entry.1 = tagName then
    if t.tag.isSome then throw (.duplicateField tagName)
    return { t with tag := some (← variant entry.2) }
  else return { t with payload := entry :: t.payload }

/-- A value told apart by a tag.  A list has its tag first. -/
def taggedValue (type : String) (variant : Json → Except Cause (Payload → Except Cause α)) :
    Json → Except Cause α
  | .array [] => .error (.missingField tagName)
  | .array (tag :: values) => do (← variant tag) (.items values)
  | .object entries => do
    let (shape, payload) ← (← entries.foldlM (Tagged.putField variant) {}).done
    shape payload
  | v => .error (.invalidType v.found ("internally tagged enum " ++ type))

/-- Values told apart by a tag.  A list has its tag first. -/
def tagged (type : String) (variants : List (String × (Payload → Except Cause α))) :
    Decoder α where
  fromText room := do
    let (variant, payload) ← placed do
      match ← next?, room with
      | none, _ => failHere .endInValue
      | some '[', 0 | some '\x7b', 0 => failNext .tooDeep
      | some '[', room + 1 => do
        skip
        closing endList do
          if ← hasItem true then
            let variant ← (identifier variants).fromText room
            return (variant, .items (← allItems (value room) false))
          else failUnplaced (.missingField tagName)
      | some '\x7b', room + 1 => do
        skip
        closing endObject do
          match (← allFields (Tagged.readField variants room) {}).done with
          | .ok both => pure both
          | .error c => failUnplaced c
      | some _, _ => mismatch ("internally tagged enum " ++ type)
    match variant payload with
    | .ok a => pure a
    | .error c => failUnplaced c
  fromValue := taggedValue type (identifier variants).fromValue

/-- Values told apart by a tag that stand beside the tag of another value.  They are collected
before they are looked at, and then the tag may be a number too. -/
def collected (type : String) (variants : List (String × (Payload → Except Cause α))) :
    Decoder α :=
  viaValue (taggedValue type (numbered variants))

/-- The first of several shapes that fits. -/
def untagged (type : String) (shapes : List (Json → Except Cause α)) : Decoder α :=
  viaValue fun v =>
    match shapes.findSome? fun shape => (shape v).toOption with
    | some a => .ok a
    | none => .error (.noVariant type)

end Decoder

end Dialogue.Json
