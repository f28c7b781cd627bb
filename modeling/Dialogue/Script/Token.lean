import Dialogue.Number.Binary64

/-!
# Tokens

The words of the scripting language, each with the place where it begins.
-/

namespace Dialogue.Script

/-- A place in a source text: line and character, both counted from one. -/
structure Pos where
  line : Nat := 1
  column : Nat := 1
  deriving DecidableEq, Repr, Inhabited

def Pos.nextLine (p : Pos) : Pos := ⟨p.line + 1, 1⟩

/-- The place after a character. -/
def Pos.after (p : Pos) (c : Char) : Pos :=
  if c = '\n' then p.nextLine else ⟨p.line, p.column + 1⟩

def Pos.text (p : Pos) : String := s!"line {p.line}, position {p.column}"

inductive TokenKind where
  | int (value : Int)
  | float (value : Binary64)
  | char (value : Char)
  | string (value : String)
  /-- a piece of a template that is followed by a block in braces -/
  | piece (value : String)
  | name (value : String)
  | keyword (value : String)
  /-- a word or sign that is kept back; some may be called like functions -/
  | reserved (value : String)
  | symbol (value : String)
  | done
  deriving DecidableEq, Repr

structure Token where
  kind : TokenKind
  pos : Pos
  deriving DecidableEq, Repr

/-- Why a source text is no script. -/
inductive SyntaxCause where
  | unexpectedInput
  | unterminatedText
  | malformedEscape
  | malformedCharacter
  | malformedNumber
  | malformedName
  | expected (what : String)
  | unexpected
  | reservedWord (word : String)
  | unknownVariable (name : String)
  | constantAssigned (name : String)
  | duplicateProperty (name : String)
  | duplicateParameter (name : String)
  | duplicateFunction (name : String)
  | misplacedFunction
  | misplacedBreak
  | notAssignable
  | tooDeep
  deriving DecidableEq, Repr

structure SyntaxFault where
  cause : SyntaxCause
  pos : Pos
  deriving DecidableEq, Repr

namespace SyntaxFault

def text (f : SyntaxFault) : String :=
  let what :=
    match f.cause with
    | .unexpectedInput => "Unexpected input"
    | .unterminatedText => "Open string is not terminated"
    | .malformedEscape => "Invalid escape sequence"
    | .malformedCharacter => "Invalid character"
    | .malformedNumber => "Invalid number"
    | .malformedName => "Variable name is not proper"
    | .expected what => "Expecting " ++ what
    | .unexpected => "Unexpected token"
    | .reservedWord word => s!"'{word}' is a reserved keyword"
    | .unknownVariable name => "Undefined variable: " ++ name
    | .constantAssigned name => "Cannot assign to constant " ++ name
    | .duplicateProperty name => "Duplicated property for object map literal: " ++ name
    | .duplicateParameter name => "Duplicated parameter: " ++ name
    | .duplicateFunction name => "Function already exists: " ++ name
    | .misplacedFunction => "Function definitions must be at global level"
    | .misplacedBreak => "Break statement should only be used inside a loop"
    | .notAssignable => "Expression cannot be assigned to"
    | .tooDeep => "Expression exceeds maximum complexity"
  s!"{what} ({f.pos.text})"

end SyntaxFault

end Dialogue.Script
