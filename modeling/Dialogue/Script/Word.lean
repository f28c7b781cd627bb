/-!
# Words and signs

The words and signs that the scripting language gives a meaning to, and what may be a name.
-/

namespace Dialogue.Script.Word

/-! ### Words -/

def isNameStart (c : Char) : Bool := c.isAlpha || c == '_'

def isNamePart (c : Char) : Bool := c.isAlphanum || c == '_'

/-- A name begins with a letter, after underscores that it may begin with. -/
def isName (s : List Char) : Bool :=
  match s.dropWhile (· == '_') with
  | c :: _ => c.isAlpha && s.all isNamePart
  | [] => false

def keywords : List String :=
  ["true", "false", "let", "const", "if", "else", "switch", "do", "while", "until", "loop", "for",
   "in", "continue", "break", "return", "throw", "try", "catch", "import", "export", "as",
   "private", "fn"]

/-- Words that may not be names.  The first three lines may be called. -/
def reservedWords : List String :=
  ["print", "debug", "eval", "Fn", "is_def_var", "is_def_fn",
   "type_of", "call", "curry", "is_shared",
   "this",
   "var", "static", "shared", "goto", "match", "case", "public", "protected", "new", "use", "with",
   "is", "module", "package", "super", "thread", "spawn", "go", "await", "async", "sync", "yield",
   "default", "void", "null", "nil"]

/-- Reserved words that may be called as functions. -/
def callableWords : List String :=
  ["print", "debug", "eval", "Fn", "is_def_var", "is_def_fn", "type_of", "call", "curry",
   "is_shared"]

/-- Reserved words that may be called as methods. -/
def methodWords : List String := ["type_of", "call", "curry", "is_shared"]

/-! ### Signs -/

/-- The signs of the language, longer ones before their beginnings. -/
def symbols : List String :=
  ["**=", "<<=", ">>=", "..=",
   "**", "<<", ">>", "..", "==", "!=", "<=", ">=", "=>", "&&", "||", "+=", "-=", "*=", "/=", "%=",
   "&=", "|=", "^=", "::", "??", "?.", "?[", "#\x7b",
   "+", "-", "*", "/", "%", "<", ">", "=", "!", "&", "|", "^", "(", ")", "[", "]", "\x7b", "\x7d",
   ";", ",", ":", "."]

/-- Signs that are kept back. -/
def reservedSymbols : List String :=
  ["===", "!==", "...", "::<", "->", "<-", ":=", ":;", "(*", "*)", "++", "--", "<|", "|>",
   "#!", "#", "~", "?", "@", "$"]

/-- What a function can be called: a name, or a sign. -/
def isFunctionName (s : String) : Bool :=
  isName s.toList || symbols.contains s || reservedSymbols.contains s

end Dialogue.Script.Word
