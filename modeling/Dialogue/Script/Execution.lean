import Dialogue.Script.Eval

/-!
# Executing a script

A script is executed in two parts: first its statements outside of functions, then its entry
point, if it has one.  Both record into the same recorder.  Operations are counted for each part
on its own, and the bound holds for each part.
-/

namespace Dialogue.Script

/-- More turns and calls than any run can take. -/
def fuel : Nat := pow2 62

structure Execution where
  /-- what was recorded, in order -/
  actions : List Action
  /-- blocks that were opened and not closed -/
  openBlocks : Nat
  hasEntryPoint : Bool
  /-- operations counted outside of functions -/
  mainOperations : Nat
  /-- operations counted in the entry point -/
  entryOperations : Nat

/-- A part of an execution comes to its end also by an exit, or by giving back a value. -/
def part {α : Type} (x : Eval α) : EStateM Fault State Unit := fun s =>
  match x { s with operations := 0 } with
  | .ok _ s | .error .exit s | .error (.giveBack _) s | .error (.leave _) s | .error .skip s =>
    .ok () s
  | .error (.fault f) s => .error f s
  | .error .starved s => .error { cause := .tooManyOperations, pos := none } s

/-- The statements outside of functions. -/
def mainPart (g : Setting) : EStateM Fault State Unit :=
  part (Eval.main g fuel g.program.main)

/-- The body of the entry point, around which the variables are that were declared outside of
functions.  A fault that cannot be caught has no place there. -/
def entryPart (g : Setting) (f : Function) : EStateM Fault State Unit := do
  let fr : Frame := { environment := (← get).outermost }
  tryCatch (part (Eval.stmt g fuel fr f.body)) fun fault =>
    throw (if fault.cause.isFinal then { fault with pos := none } else fault)

/-- Both parts, one after the other. -/
def parts (g : Setting) (entryPoint : String) : EStateM Fault State Execution := do
  mainPart g
  let mainOperations := (← get).operations
  let entry? := g.program.function? entryPoint 0
  match entry? with
  | none => modify fun s => { s with operations := 0 }
  | some f => entryPart g f
  let s ← get
  return { actions := s.recorder.top, openBlocks := s.recorder.depth,
           hasEntryPoint := entry?.isSome, mainOperations, entryOperations := s.operations }

/-- Executes a script; the events are told also by an execution that fails. -/
def execute (g : Setting) (entryPoint : String) : List Event × Except Fault Execution :=
  match (parts g entryPoint).run {} with
  | .ok e s => (s.events, .ok e)
  | .error fault s => (s.events, .error fault)

end Dialogue.Script
