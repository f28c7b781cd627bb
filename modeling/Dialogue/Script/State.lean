import Dialogue.Event
import Dialogue.Recorder
import Dialogue.Script.Fault
import Dialogue.Script.Place

/-!
# What a running script changes

The variables of a script live in cells, so that a closure and the code around it share them.
A cell of a constant keeps what it began with: no part of that can be changed, but a map in it
can get further fields.  A run also counts its operations, tells events, and records the actions
of the dialogue.

A run that is cut short says how: by a fault, by leaving a loop or a function, by an exit, or
for want of fuel.  What was recorded before stays recorded; only a block whose body is cut short
is dropped as a whole (`guarded`).
-/

namespace Dialogue.Script

/-- What is fixed during a run. -/
structure Setting where
  program : Program
  /-- how the unit is named in messages -/
  unit : String
  /-- how many operations may be carried out; zero sets no bound -/
  maxOperations : Nat := 0

structure Cell where
  value : Value
  /-- what a constant began with -/
  constant : Option Value := none
  /-- closures see the cell too -/
  shared : Bool := false
  /-- steps are being taken into the value -/
  inUse : Bool := false
  deriving Inhabited

/-- Whether the part of a cell at some keys cannot be changed. -/
def Cell.isFixed (c : Cell) (keys : List Key) : Bool := c.constant.any (·.hasParts keys)

/-- What a run changes. -/
structure State where
  cells : Array Cell := #[]
  operations : Nat := 0
  recorder : Recorder := {}
  events : List Event := []
  /-- the variables declared outside of functions, innermost first -/
  outermost : Environment := []

/-- How a run is cut short. -/
inductive Ending where
  | fault (fault : Fault)
  /-- a loop is left with a value -/
  | leave (value : Value)
  /-- the next turn of a loop -/
  | skip
  | giveBack (value : Value)
  | exit
  | starved

abbrev Eval := EStateM Ending State

/-- What a piece of code sees. -/
structure Frame where
  environment : Environment := []
  /-- the cell of the object of a call -/
  object : Option Nat := none
  /-- how many calls are open -/
  level : Nat := 0

/-- How many calls may be open. -/
def maxCalls : Nat := 64

/-- A value that steps lead to, and where it is kept, if it is: a cell, and the keys from there. -/
structure Spot where
  value : Value
  home : Option (Nat × List Key) := none

/-- The part of a value that is kept at a spot. -/
def Spot.step (s : Spot) (key : Key) : Except PartFault Spot := do
  let v ← s.value.part key
  let home :=
    if s.value.isHeld key then s.home.map fun (cell, keys) => (cell, keys ++ [key]) else none
  return ⟨v, home⟩

namespace Eval

/-! ### Faults and endings -/

def fail {α : Type} (cause : Cause) (pos : Option Pos) : Eval α := throw (.fault { cause, pos })

/-- Runs `x` and gives its ending as a value. -/
def attempt {α : Type} (x : Eval α) : Eval (Except Ending α) := fun s =>
  match x s with
  | .ok a s => .ok (.ok a) s
  | .error e s => .ok (.error e) s

def ofParts {α : Type} : Except PartFault α → Eval α
  | .ok a => return a
  | .error f => fail (.misused f.fault) f.pos

/-- The value of an operator, which is named by its sign if it does not take its operands.
Arithmetic that fails does so at `place`. -/
def ofOperator {α : Type} (sign : String) (operands : List Value) (pos : Pos)
    (place : Option Pos) : Except OperatorFault α → Eval α
  | .ok a => return a
  | .error (.arithmetic f) => fail (.arithmetic f) place
  | .error .undefined => fail (.noFunctionFor sign operands) pos
  | .error .functionsCompared =>
    fail (.noFunctionFor Binary.eq.sign [.function "", .function ""]) pos

/-- A truth value, where one is expected. -/
def truth (v : Value) (pos : Pos) : Eval Bool :=
  match v with
  | .bool b => return b
  | v => fail (.misused (.wrongType v.fullTypeName "bool")) pos

/-- A function value, where one is expected. -/
def callable (v : Value) (pos : Pos) : Eval Unit :=
  if v.isCallable then return () else fail (.misused (.wrongType v.typeName "Fn")) pos

/-- A text, where one is expected. -/
def textOf (v : Value) (pos : Pos) : Eval String :=
  match v with
  | .string s => return s
  | v => fail (.misused (.wrongType v.fullTypeName "string")) pos

/-- Counts an operation. -/
def tick (g : Setting) : Eval Unit := do
  let n := (← get).operations + 1
  modify fun s => { s with operations := n }
  if g.maxOperations ≠ 0 ∧ g.maxOperations < n then fail .tooManyOperations none

def tell (event : Event) : Eval Unit := modify fun s => { s with events := s.events ++ [event] }

/-! ### Cells -/

def allocate (c : Cell) : Eval Nat := do
  let n := (← get).cells.size
  modify fun s => { s with cells := s.cells.push c }
  return n

def cellAt (n : Nat) : Eval Cell := return (← get).cells.getD n { value := .unit }

def readCell (n : Nat) : Eval Value := return (← cellAt n).value

def changeCell (n : Nat) (f : Cell → Cell) : Eval Unit :=
  modify fun s => { s with cells := s.cells.modify n f }

def writeCell (n : Nat) (v : Value) : Eval Unit := changeCell n ({ · with value := v })

/-- From now on closures see the cell too. -/
def share (n : Nat) : Eval Unit := changeCell n ({ · with shared := true })

/-- A variable in front of the others, or in the place of one of them. -/
def withVariable (e : Environment) (name : String) (cell : Nat) : Option Nat → Environment
  | none => (name, cell) :: e
  | some i => e.set i (name, cell)

/-- New cells for variables, the first of which is innermost. -/
def allocateAll : List (String × Value) → Eval Environment
  | [] => return []
  | (name, v) :: rest => do
    let n ← allocate { value := v }
    return (name, n) :: (← allocateAll rest)

/-- The cell of a variable, so many variables away or else found by its name, that no steps are
being taken into. -/
def cellOf (fr : Frame) (name : String) (away : Option Nat) (pos : Pos) : Eval Nat :=
  let cell? :=
    match away with
    | some n => (fr.environment[n]?).map (·.2)
    | none => fr.environment.lookup name
  match cell? with
  | some n => do
    if (← cellAt n).inUse then fail .variableInUse none
    return n
  | none => fail (.unbound name) pos

/-- Takes steps into the value of a cell.  If closures see the cell too, none of them can look at
it in the meantime. -/
def whileInUse (n : Nat) (steps : Eval Value) : Eval Value := do
  if (← cellAt n).shared then
    changeCell n ({ · with inUse := true })
    let ending ← attempt steps
    changeCell n ({ · with inUse := false })
    match ending with
    | .ok v => return v
    | .error e => throw e
  else steps

/-- The cell of the object of a call. -/
def objectOf (fr : Frame) (pos : Pos) : Eval Nat :=
  match fr.object with
  | some n => return n
  | none => fail .noObject pos

/-! ### Spots -/

def spotOf (cell : Nat) : Eval Spot := return ⟨← readCell cell, some (cell, [])⟩

/-- Whether what is kept at a spot cannot be changed. -/
def isFixed (s : Spot) : Eval Bool :=
  match s.home with
  | some (cell, keys) => return (← cellAt cell).isFixed keys
  | none => return false

/-- Puts a value where another is kept.  What is kept nowhere is lost. -/
def store (s : Spot) (v : Value) (pos : Pos) : Eval Unit :=
  match s.home with
  | some (cell, keys) => do writeCell cell (← ofParts ((← readCell cell).setParts keys v pos))
  | none => return ()

/-- What an assignment makes of an old and a new value.  A value that is no array itself is added
to an array as an item. -/
def combine (op : Option Binary) (old new : Value) (pos : Pos) : Eval Value :=
  match op, old, new with
  | none, _, new => return new
  | some .add, .array items, .array more => return .array (items ++ more)
  | some .add, .array items, new => return .array (items ++ [new])
  | some op, old, new => ofOperator op.sign [old, new] pos pos (Operators.written op old new)

/-- Assigns to what is kept at a spot; `root` names the variable that it is a part of. -/
def assign (op : Option Binary) (s : Spot) (new : Value) (root : String) (rootPos pos : Pos) :
    Eval Unit := do
  if ← isFixed s then fail (.constantChanged root) rootPos
  store s (← combine op s.value new pos) pos

/-- Assigns to the part of a spot at a key.  A field that a map does not have is added.  The
properties of other values cannot be assigned to. -/
def assignPart (op : Option Binary) (s : Spot) (key : Key) (new : Value) (root : String)
    (rootPos pos : Pos) : Eval Unit := do
  match s.value, key with
  | .map _, .property _ _ | .map _, .item (.string _) _ _ =>
    unless s.value.isHeld key do store s (← ofParts (s.value.setPart key .unit pos)) pos
    let home := s.home.map fun (cell, keys) => (cell, keys ++ [key])
    assign op ⟨← ofParts (s.value.part key), home⟩ new root rootPos pos
  | v, .property _ _ =>
    let old ← if op.isSome then ofParts (v.part key) else pure .unit
    discard (ofParts (v.setPart key (← combine op old new pos) pos))
  | v, .item _ _ _ =>
    match s.step key with
    | .ok part => assign op part new root rootPos pos
    | .error ⟨.noItems _ _, _⟩ => discard (ofParts (v.setPart key new pos))
    | .error f => fail (.misused f.fault) f.pos

/-! ### Recording -/

def record (a : Action) : Eval Unit := modify fun s => { s with recorder := s.recorder.record a }

def openBlock : Eval Unit := modify fun s => { s with recorder := s.recorder.openBlock }

def closeBlock : Eval (List Action) := do
  let (actions, recorder) := (← get).recorder.closeBlock
  modify fun s => { s with recorder }
  return actions

/-- Runs a body in a block of its own, and records the block under a condition if the body comes
to its end. -/
def guarded (condition : Condition) (body : Eval Unit) : Eval Unit := do
  openBlock
  let ending ← attempt body
  let actions ← closeBlock
  match ending with
  | .ok () => record (.conditional condition actions)
  | .error e => throw e

end Eval

end Dialogue.Script
