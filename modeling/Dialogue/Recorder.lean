import Dialogue.Action

/-!
# Recording actions

A recorder holds the actions of the innermost open block and, below it, those of the blocks
around.  Closing a block gives its actions and goes on with the block around it.
-/

namespace Dialogue

structure Recorder where
  /-- the actions of the innermost open block -/
  top : List Action := []
  /-- those of the blocks around it, from the inside out -/
  outer : List (List Action) := []
  deriving Repr, Inhabited

namespace Recorder

def record (r : Recorder) (a : Action) : Recorder := { r with top := r.top ++ [a] }

/-- Opens a block inside the innermost one. -/
def openBlock (r : Recorder) : Recorder := ⟨[], r.top :: r.outer⟩

/-- Closes the innermost block.  The outermost one stays open. -/
def closeBlock (r : Recorder) : List Action × Recorder :=
  match r.outer with
  | [] => ([], r)
  | around :: outer => (r.top, ⟨around, outer⟩)

/-- How many blocks are open inside the outermost one. -/
def depth (r : Recorder) : Nat := r.outer.length

theorem closeBlock_openBlock (r : Recorder) : r.openBlock.closeBlock = ([], r) := rfl

theorem outer_record (r : Recorder) (a : Action) : (r.record a).outer = r.outer := rfl

end Recorder

end Dialogue
