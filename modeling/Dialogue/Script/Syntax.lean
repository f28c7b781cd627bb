import Dialogue.Script.Token

/-!
# Scripts

The expressions and statements of the scripting language.  What can go wrong when it is
evaluated carries its place.  That every variable has a declaration before its use is checked when
a script is read, and then it is also known how far away that declaration is.
-/

namespace Dialogue.Script

/-- A value that is known before a script runs. -/
inductive Literal where
  | unit
  | bool (value : Bool)
  | int (value : Int)
  | float (value : Binary64)
  | char (value : Char)
  | string (value : String)
  | array (items : List Literal)
  | map (fields : List (String × Literal))
  | range (first last : Int) (inclusive : Bool)
  /-- a function by its name -/
  | function (name : String)
  deriving Repr

instance : Inhabited Literal := ⟨.unit⟩

/-- A range in which something lies. -/
def Literal.isRange : Literal → Bool
  | range a b inclusive => a < b || inclusive && a == b
  | _ => false

inductive Binary where
  | add | sub | mul | div | mod | pow
  | eq | ne | lt | le | gt | ge
  | bitAnd | bitOr | bitXor | shiftLeft | shiftRight
  deriving DecidableEq, Repr

/-- The sign of an operator. -/
def Binary.sign : Binary → String
  | add => "+" | sub => "-" | mul => "*" | div => "/" | mod => "%" | pow => "**"
  | eq => "==" | ne => "!=" | lt => "<" | le => "<=" | gt => ">" | ge => ">="
  | bitAnd => "&" | bitOr => "|" | bitXor => "^" | shiftLeft => "<<" | shiftRight => ">>"

/-- The operator can be joined with an assignment. -/
def Binary.assigns : Binary → Bool
  | eq | ne | lt | le | gt | ge => false
  | add | sub | mul | div | mod | pow | bitAnd | bitOr | bitXor | shiftLeft | shiftRight => true

/-- Operators that look at the second operand only if the first leaves it open. -/
inductive Choice where
  | and
  | or
  /-- the first value that is not unit -/
  | coalesce
  deriving DecidableEq, Repr

inductive Unary where
  | minus
  | plus
  | not
  deriving DecidableEq, Repr

def Unary.sign : Unary → String
  | minus => "-" | plus => "+" | not => "!"

mutual

inductive Expr where
  | literal (value : Literal) (pos : Pos)
  | template (parts : List Expr) (pos : Pos)
  | array (items : List Expr) (pos : Pos)
  | map (fields : List (String × Expr)) (pos : Pos)
  /-- a variable, and how many others that are still seen were declared after it; none is told of
  a variable from outside of the closure -/
  | var (name : String) (away : Option Nat) (pos : Pos)
  | this (pos : Pos)
  /-- a function by its name -/
  | function (name : String) (pos : Pos)
  /-- a function with the variables around it that its body names, and what they stand for -/
  | closure (captured : List (String × Expr)) (params : List String) (body : Stmt) (pos : Pos)
  | call (name : String) (args : List Expr) (pos : Pos)
  /-- steps into a value, one after the other; the place is that of the first sign -/
  | chain (base : Expr) (steps : List Step) (pos : Pos)
  | unary (op : Unary) (arg : Expr) (pos : Pos)
  | binary (op : Binary) (left right : Expr) (pos : Pos)
  | choice (op : Choice) (left right : Expr) (pos : Pos)
  | range (first last : Expr) (inclusive : Bool) (pos : Pos)
  | stmt (body : Stmt) (pos : Pos)

/-- A step from a value to a part of it, or to the answer of a method. -/
inductive Step where
  | property (name : String) (pos : Pos)
  /-- an item; the place is that of the bracket -/
  | index (key : Expr) (pos : Pos)
  | method (name : String) (args : List Expr) (pos : Pos)
  /-- the steps after it are left out if the value is unit -/
  | present

inductive Stmt where
  | nothing
  | expr (value : Expr)
  /-- a declaration; it takes the place of one with the same name in its block, of which is told
  how many others that are still seen were declared after it -/
  | declare (name : String) (constant : Bool) (place : Option Nat) (value : Option Expr)
  /-- assigns, with an operator if there is one -/
  | assign (op : Option Binary) (target value : Expr) (pos : Pos)
  | block (stmts : List Stmt)
  | branch (cond : Expr) (yes : Stmt) (no : Option Stmt)
  /-- cases are chosen by a value or by a range of numbers, and may have a condition -/
  | switch (subject : Expr) (cases : List (List Literal × Option Expr × Stmt))
      (otherwise : Option Stmt)
  /-- repeats while the condition, if there is one, holds -/
  | loop (cond : Option Expr) (body : Stmt)
  /-- runs, then repeats as long as the condition has the given value -/
  | again (body : Stmt) (cond : Expr) (goOn : Bool)
  | each (item : String) (counter : Option String) (source : Expr) (body : Stmt)
  | leave (value : Option Expr)
  | skip
  | giveBack (value : Option Expr)
  | raise (value : Option Expr) (pos : Pos)
  | attempt (body : Stmt) (name : Option String) (handler : Stmt)

end

instance : Inhabited Expr := ⟨.literal .unit {}⟩
instance : Inhabited Stmt := ⟨.block []⟩

/-- A case of a switch: what chooses it, its condition, and what it does. -/
abbrev Case := List Literal × Option Expr × Stmt

namespace Expr

/-- Where an expression is said to stand. -/
def pos : Expr → Pos
  | literal _ p | template _ p | array _ p | map _ p | var _ _ p | this p | function _ p
  | closure _ _ _ p | call _ _ p | chain _ _ p | unary _ _ p | binary _ _ _ p | choice _ _ _ p
  | range _ _ _ p | stmt _ p => p

/-- Where an expression begins, if it is a chain or a choice; else where it stands. -/
def start : Expr → Pos
  | chain base _ _ => base.start
  | choice _ left _ _ => left.start
  | e => e.pos

end Expr

/-- A block without statements. -/
def Stmt.isEmpty : Stmt → Bool
  | .block [] => true
  | _ => false

/-- A function of a script. -/
structure Function where
  name : String
  params : List String
  body : Stmt

/-- A whole script: its functions, and what runs when it is loaded. -/
structure Program where
  functions : List Function
  main : List Stmt

namespace Program

/-- The function of that name with so many parameters. -/
def function? (p : Program) (name : String) (params : Nat) : Option Function :=
  p.functions.find? fun f => f.name == name && f.params.length == params

end Program

end Dialogue.Script
