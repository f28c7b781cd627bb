import Dialogue.Script.Syntax

/-!
# Code without effects

An expression is pure if computing it tells nothing, records nothing and calls nothing.  Steps
into a value and operators count as calls.  A statement is pure if it also comes to its end and
declares nothing.  Purity is read off the text alone: a pure expression may still be at fault, as
a condition is that turns out to be no truth value.
-/

namespace Dialogue.Script

mutual

/-- The value of the expression is known from its text. -/
def Expr.isConstant : Expr → Bool
  | .literal _ _ => true
  | .template parts _ | .array parts _ => Expr.areConstant parts
  | .map fields _ => Expr.fieldsConstant fields
  | .closure captured _ _ _ => captured.isEmpty
  | .var _ _ _ | .this _ | .function _ _ | .call _ _ _ | .chain _ _ _ | .unary _ _ _
  | .binary _ _ _ _ | .choice _ _ _ _ | .range _ _ _ _ | .stmt _ _ => false

def Expr.areConstant : List Expr → Bool
  | [] => true
  | e :: rest => e.isConstant && Expr.areConstant rest

def Expr.fieldsConstant : List (String × Expr) → Bool
  | [] => true
  | (_, e) :: rest => e.isConstant && Expr.fieldsConstant rest

end

mutual

def Expr.isPure : Expr → Bool
  | .literal _ _ | .var _ _ _ | .function _ _ => true
  | .template parts _ | .array parts _ => Expr.arePure parts
  | .map fields _ => Expr.fieldsPure fields
  | .closure captured _ _ _ => captured.isEmpty
  | .choice _ left right _ => left.isPure && right.isPure
  | .stmt body _ => body.isPure
  | .this _ | .call _ _ _ | .chain _ _ _ | .unary _ _ _ | .binary _ _ _ _
  | .range _ _ _ _ => false

def Expr.arePure : List Expr → Bool
  | [] => true
  | e :: rest => e.isPure && Expr.arePure rest

def Expr.fieldsPure : List (String × Expr) → Bool
  | [] => true
  | (_, e) :: rest => e.isPure && Expr.fieldsPure rest

def Stmt.isPure : Stmt → Bool
  | .nothing => true
  | .expr e => e.isPure
  | .block body => Stmt.arePure body
  | .branch cond yes none => cond.isPure && yes.isPure
  | .branch cond yes (some no) => cond.isPure && yes.isPure && no.isPure
  | .switch subject listed (some otherwise) =>
    subject.isPure && Stmt.casesPure listed && otherwise.isPure
  | .loop (some (.literal (.bool false) _)) _ => true
  | .again body (.literal (.bool b) _) goOn => b != goOn && body.isPure
  | .each _ _ source body => source.isPure && body.isPure
  | .attempt body _ handler => body.isPure && handler.isPure
  | .switch _ _ none | .loop _ _ | .again _ _ _ | .declare _ _ _ _ | .assign _ _ _ _ | .leave _
  | .skip | .giveBack _ | .raise _ _ => false

def Stmt.arePure : List Stmt → Bool
  | [] => true
  | s :: rest => s.isPure && Stmt.arePure rest

def Stmt.casesPure : List Case → Bool
  | [] => true
  | (_, none, body) :: rest => body.isPure && Stmt.casesPure rest
  | (_, some cond, body) :: rest => cond.isPure && body.isPure && Stmt.casesPure rest

end

namespace Stmt

def isDeclaration : Stmt → Bool
  | .declare _ _ _ _ => true
  | _ => false

/-- Declares a variable and does nothing else. -/
def isPureDeclaration : Stmt → Bool
  | .declare _ _ _ none => true
  | .declare _ _ _ (some e) => e.isPure
  | _ => false

/-- The statements after it are never reached. -/
def cutsShort : Stmt → Bool
  | .leave _ | .skip | .giveBack _ | .raise _ _ => true
  | _ => false

/-- At the end of a block the statement is meant to give the value of the block.  Loops and
attempts give one too if they come last, but they are not meant to. -/
def givesValue : Stmt → Bool
  | .expr _ | .branch _ _ _ | .switch _ _ _ | .block _ => true
  | _ => false

end Stmt

end Dialogue.Script
