import Dialogue.Script.Lexer
import Dialogue.Script.Syntax

/-!
# From tokens to scripts

A parser takes tokens from the front of a list.  It knows which variables can be seen where it
stands, so that a variable without a declaration is a fault, and how deep expressions may still
be nested.  Functions are collected as they are met; they see no variables but their own.  A
closure sees the variables around it, and those that its body names are collected too.

Every call takes at least a token after a bounded number of calls that take none, so the fuel
that `parse` starts with is enough.
-/

namespace Dialogue.Script

/-- What is known of a variable. -/
structure Known where
  constant : Bool
  /-- in how many closures its declaration stands -/
  depth : Nat

/-- What a parser knows of the place where it stands. -/
structure Context where
  /-- the variables that can be seen, innermost first -/
  visible : List (String × Known) := []
  /-- how many of them are declared outside of the block -/
  outside : Nat := 0
  inLoop : Bool := false
  /-- inside a function or closure, where the object of a call can be named -/
  inCall : Bool := false
  /-- in how many closures this is -/
  depth : Nat := 0
  /-- bars stand between the values of a case here -/
  barred : Bool := false
  /-- how much deeper expressions may be nested -/
  room : Nat

namespace Context

/-- The scope inside a block. -/
def opened (s : Context) : Context := { s with outside := s.visible.length }

/-- The scope with a new variable in front of the others. -/
def push (s : Context) (name : String) (constant : Bool) : Context :=
  { s with visible := (name, ⟨constant, s.depth⟩) :: s.visible }

def pushAll (s : Context) (names : List String) : Context := names.foldl (·.push · false) s

/-- The scope after a declaration, and the place of the variable of that name in the block, if it
has one; the new variable takes that place. -/
def declare (s : Context) (name : String) (constant : Bool) : Option Nat × Context :=
  match s.visible.findIdx? (·.1 == name) with
  | some i =>
    if i + s.outside < s.visible.length then
      (some i, { s with visible := s.visible.set i (name, ⟨constant, s.depth⟩) })
    else (none, s.push name constant)
  | none => (none, s.push name constant)

/-- A variable that can be seen. -/
def var (s : Context) (name : String) (pos : Pos) : Expr :=
  let isOwn := (s.visible.lookup name).any (·.depth = s.depth)
  .var name (if isOwn then s.visible.findIdx? (·.1 == name) else none) pos

/-- The scope of a function with these parameters. -/
def ofParams (room : Nat) (params : List String) : Context :=
  { inCall := true, room : Context }.pushAll params

end Context

structure Progress where
  rest : List Token
  functions : List Function := []
  /-- the variables that closures name but do not declare, with the depth of the declaration -/
  captured : List (String × Nat) := []

abbrev Parser := EStateM SyntaxFault Progress

namespace Parser

/-! ### Single tokens -/

def peek : Parser Token := return (← get).rest.head?.getD ⟨.done, {}⟩

def advance : Parser Unit := modify fun s => { s with rest := s.rest.tail }

def failAt {α : Type} (pos : Pos) (cause : SyntaxCause) : Parser α := throw ⟨cause, pos⟩

def failHere {α : Type} (cause : SyntaxCause) : Parser α := do failAt (← peek).pos cause

/-- Takes the next token if it is this one. -/
def accept (kind : TokenKind) : Parser Bool := do
  if (← peek).kind = kind then
    advance
    return true
  else return false

def symbol (sign : String) : Parser Bool := accept (.symbol sign)

def keyword (word : String) : Parser Bool := accept (.keyword word)

def expectSymbol (sign : String) : Parser Unit := do
  unless ← symbol sign do failHere (.expected sign)

def expectKeyword (word : String) : Parser Unit := do
  unless ← keyword word do failHere (.expected word)

/-- The name of a variable, a parameter or a property. -/
def name : Parser String := do
  match (← peek).kind with
  | .name s =>
    advance
    return s
  | .reserved s => failHere (.reservedWord s)
  | _ => failHere (.expected "a name")

/-- The scope one level deeper. -/
def inside (scope : Context) : Parser Context := do
  if scope.room = 0 then failHere .tooDeep
  else return { scope with room := scope.room - 1 }

/-- Whether a statement ends here. -/
def atEnd : Parser Bool := do
  match (← peek).kind with
  | .done | .symbol ";" | .symbol "\x7d" => return true
  | _ => return false

/-- Whether no expression can begin here, since what is around it goes on or ends. -/
def atClose : Parser Bool := do
  match (← peek).kind with
  | .symbol "," | .symbol ")" | .symbol "]" => return true
  | _ => atEnd

/-! ### Operators -/

/-- What joins two operands. -/
inductive Joint where
  | binary (op : Binary)
  | choice (op : Choice)
  | contains (negated : Bool)
  | range (inclusive : Bool)

/-- How closely powers bind; alone among the operators they group from the right. -/
def powerLevel : Nat := 190

/-- The operator of a sign, and how closely it binds. -/
def jointOf? : String → Option (Joint × Nat)
  | "||" => some (.choice .or, 30)
  | "|" => some (.binary .bitOr, 30)
  | "^" => some (.binary .bitXor, 30)
  | "&&" => some (.choice .and, 60)
  | "&" => some (.binary .bitAnd, 60)
  | "==" => some (.binary .eq, 90)
  | "!=" => some (.binary .ne, 90)
  | "<" => some (.binary .lt, 130)
  | "<=" => some (.binary .le, 130)
  | ">" => some (.binary .gt, 130)
  | ">=" => some (.binary .ge, 130)
  | "??" => some (.choice .coalesce, 135)
  | ".." => some (.range false, 140)
  | "..=" => some (.range true, 140)
  | "+" => some (.binary .add, 150)
  | "-" => some (.binary .sub, 150)
  | "*" => some (.binary .mul, 180)
  | "/" => some (.binary .div, 180)
  | "%" => some (.binary .mod, 180)
  | "**" => some (.binary .pow, powerLevel)
  | "<<" => some (.binary .shiftLeft, 210)
  | ">>" => some (.binary .shiftRight, 210)
  | _ => none

/-- The operator at the front of some tokens, how closely it binds, and its number of tokens. -/
def joint? : List Token → Option (Joint × Nat × Nat)
  | ⟨.symbol "!", p⟩ :: ⟨.keyword "in", q⟩ :: _ =>
    if q = p.after '!' then some (.contains true, 110, 2) else none
  | ⟨.keyword "in", _⟩ :: _ => some (.contains false, 110, 1)
  | ⟨.symbol s, _⟩ :: _ => (jointOf? s).map fun (j, level) => (j, level, 1)
  | _ => none

/-- The operator of an assignment with this sign, if it is one; `=` assigns without an operator. -/
def assignment? : TokenKind → Option (Option Binary)
  | .symbol "=" => some none
  | .symbol "+=" => some (some .add)
  | .symbol "-=" => some (some .sub)
  | .symbol "*=" => some (some .mul)
  | .symbol "/=" => some (some .div)
  | .symbol "%=" => some (some .mod)
  | .symbol "**=" => some (some .pow)
  | .symbol "&=" => some (some .bitAnd)
  | .symbol "|=" => some (some .bitOr)
  | .symbol "^=" => some (some .bitXor)
  | .symbol "<<=" => some (some .shiftLeft)
  | .symbol ">>=" => some (some .shiftRight)
  | _ => none

/-- A variable, the object of a call, or a part of one of them can be assigned to.  A constant
cannot, but a closure may assign to a constant around it until it runs. -/
def checkTarget (scope : Context) (target : Expr) : Parser Unit :=
  match target with
  | .var name _ pos =>
    match scope.visible.lookup name with
    | some known =>
      if known.constant && known.depth = scope.depth then failAt pos (.constantAssigned name)
      else return
    | none => return
  | .this _ => return
  | .chain (.var _ _ _) steps pos | .chain (.this _) steps pos =>
    if steps.any fun | .method _ _ _ => true | _ => false then failAt pos .notAssignable
    else return
  | e => failAt e.pos .notAssignable

/-- A negative number is one literal. -/
def negate (pos : Pos) : Expr → Expr
  | .literal (.int n) _ => integer (-n) pos
  | .literal (.float x) _ => .literal (.float x.neg) pos
  | e => .unary .minus e pos
where
  /-- an integer that is too large to be one is a float -/
  integer (n : Int) (pos : Pos) : Expr :=
    .literal (if n ≤ Lexer.maxInt then .int n else .float (Binary64.ofInt n)) pos

/-! ### What is known not to fit -/

/-- What is known not to be true or false. -/
def isNoCondition : Expr → Bool
  | .literal (.bool _) _ => false
  | .closure captured _ _ _ => captured.isEmpty
  | .literal _ _ | .template _ _ | .array _ _ | .map _ _ => true
  | _ => false

/-- What is known to have no items. -/
def isNoSource : Expr → Bool
  | .literal _ _ | .map _ _ => true
  | _ => false

/-- A key that is known not to be a number; the flag tells that texts are keys too. -/
def isNoKey (texts : Bool) : Expr → Bool
  | .literal (.int _) _ => texts
  | .literal (.string _) _ | .template _ _ => !texts
  | .literal _ _ | .choice .and _ _ _ | .choice .or _ _ _ => true
  | _ => false

/-- A value that is written down and known not to have an item at a key. -/
def isMisfit : Expr → Expr → Bool
  | .map _ _, key => isNoKey true key
  | .array _ _, key | .template _ _, key | .literal (.string _) _, key | .literal (.int _) _, key =>
    isNoKey false key
  | _, _ => false

/-- Joins two operands. -/
def join (j : Joint) (left right : Expr) (pos : Pos) : Parser Expr := do
  match j with
  | .binary op => return .binary op left right pos
  | .choice op =>
    unless op matches .coalesce do
      if isNoCondition left then failAt left.pos (.expected "a condition")
      if isNoCondition right then failAt right.pos (.expected "a condition")
    return .choice op left right pos
  | .contains negated =>
    let found := .call "contains" [right, left] left.start
    return if negated then .unary .not found left.start else found
  | .range inclusive => return .range left right inclusive pos

/-! ### Values that a switch knows -/

mutual

/-- The value of an expression that is written down. -/
def literal? : Expr → Option Literal
  | .literal l _ => some l
  | .array items _ => (literals? items).map .array
  | .map fields _ => (literalFields? fields).map .map
  | .call "Fn" [.literal (.string name) _] _ =>
    if Word.isFunctionName name then some (.function name) else none
  | .range (.literal (.int a) _) (.literal (.int b) _) inclusive _ => some (.range a b inclusive)
  | _ => none

def literals? : List Expr → Option (List Literal)
  | [] => some []
  | e :: rest => do return (← literal? e) :: (← literals? rest)

/-- The fields of a map, in ascending order of their names. -/
def literalFields? : List (String × Expr) → Option (List (String × Literal))
  | [] => some []
  | (n, e) :: rest => do
    let l ← literal? e
    let ls ← literalFields? rest
    return ls.takeWhile (·.1 < n) ++ (n, l) :: ls.dropWhile (·.1 < n)

end

/-- Whether an integer comes after a range; the flag tells that a range came before. -/
def hasLateInteger : Bool → List Literal → Bool
  | _, [] => false
  | true, .int _ :: _ => true
  | ranged, l :: rest => hasLateInteger (ranged || l.isRange) rest

/-! ### Statements and lists of names -/

/-- Statements after which no semicolon is needed. -/
def standsAlone : Stmt → Bool
  | .branch _ _ _ | .switch _ _ _ | .loop _ _ | .each _ _ _ _ | .block _ | .attempt _ _ _ => true
  | _ => false

/-- The first name that is repeated later. -/
def repeated? : List String → Option String
  | [] => none
  | n :: rest => if n ∈ rest then some n else repeated? rest

/-- Parameters up to the closing sign, which may follow a comma. -/
def params (close : String) : Nat → Parser (List String)
  | 0 => failHere .tooDeep
  | fuel + 1 => do
    if ← symbol close then return []
    let n ← name
    if ← symbol "," then return n :: (← params close fuel)
    expectSymbol close
    return [n]

/-! ### Expressions and statements -/

/-- How deep expressions may be nested in a function. -/
def functionRoom : Nat := 32

/-- How deep expressions may be nested outside of functions. -/
def globalRoom : Nat := 64

mutual

/-- An expression whose operators bind at least so closely. -/
def expression : Nat → Context → Nat → Parser Expr
  | 0, _, _ => failHere .tooDeep
  | fuel + 1, scope, least => do
    let first ← operand fuel scope
    operators fuel scope least first

/-- The operators that follow an operand.  Each is one level deeper than the one before it. -/
def operators : Nat → Context → Nat → Expr → Parser Expr
  | 0, _, _, _ => failHere .tooDeep
  | fuel + 1, scope, least, left => do
    let rest := (← get).rest
    match joint? rest with
    | none => return left
    | some (joint, level, count) =>
      let t ← peek
      if level < least || scope.barred && t.kind = .symbol "|" then return left
      let scope ← inside scope
      modify fun s => { s with rest := rest.drop count }
      let right ← expression fuel scope (if level = powerLevel then level else level + 1)
      operators fuel scope least (← join joint left right t.pos)

/-- A value with the signs before it and the steps after it. -/
def operand : Nat → Context → Parser Expr
  | 0, _ => failHere .tooDeep
  | fuel + 1, scope => do
    let t ← peek
    match t.kind with
    | .symbol "-" =>
      advance
      return negate t.pos (← operand fuel (← inside scope))
    | .symbol "+" =>
      advance
      match ← operand fuel (← inside scope) with
      | e@(.literal (.int _) _) | e@(.literal (.float _) _) => return e
      | e => return .unary .plus e t.pos
    | .symbol "!" =>
      advance
      return .unary .not (← operand fuel (← inside scope)) t.pos
    | _ =>
      let base ← primary fuel scope
      let pos := (← peek).pos
      match base, ← steps fuel scope base true with
      | base, [] => return base
      | .chain root before signPos, ss => return .chain root (before ++ ss) signPos
      | base, ss => return .chain base ss pos

/-- Indices, properties and methods of a value; the flag tells that they come right after it.  A
question mark before one of them leaves it out, and the rest, if there is no value. -/
def steps : Nat → Context → Expr → Bool → Parser (List Step)
  | 0, _, _, _ => failHere .tooDeep
  | fuel + 1, scope, base, first => do
    let sign ← peek
    if sign.kind = .symbol "?[" || sign.kind = .symbol "?." then
      let bare := if sign.kind = .symbol "?[" then "[" else "."
      modify fun s => { s with rest := ⟨.symbol bare, sign.pos⟩ :: s.rest.tail }
      return .present :: (← steps fuel scope base first)
    else if ← symbol "[" then
      let scope ← inside scope
      let key ← expression fuel scope 0
      if first && isMisfit base key then failAt key.pos .unexpected
      expectSymbol "]"
      return .index key sign.pos :: (← steps fuel scope base false)
    else if ← symbol "." then
      let scope ← inside scope
      let t ← peek
      match t.kind with
      | .name n =>
        advance
        if ← symbol "(" then
          let args ← arguments fuel (← inside scope) ")"
          return .method n args t.pos :: (← steps fuel scope base false)
        else return .property n t.pos :: (← steps fuel scope base false)
      | .reserved w =>
        advance
        if w ∈ Word.methodWords && (← symbol "(") then
          let args ← arguments fuel (← inside scope) ")"
          return .method w args t.pos :: (← steps fuel scope base false)
        else failAt t.pos (.reservedWord w)
      | _ => failHere (.expected "a property")
    else return []

/-- Expressions up to the closing sign, which may follow a comma. -/
def arguments : Nat → Context → String → Parser (List Expr)
  | 0, _, _ => failHere .tooDeep
  | fuel + 1, scope, close => do
    if ← symbol close then return []
    let e ← expression fuel scope 0
    if ← symbol "," then return e :: (← arguments fuel scope close)
    expectSymbol close
    return [e]

/-- The fields of a map after those already seen. -/
def fields : Nat → Context → List String → Parser (List (String × Expr))
  | 0, _, _ => failHere .tooDeep
  | fuel + 1, scope, seen => do
    if ← symbol "\x7d" then return []
    let t ← peek
    let key ←
      match t.kind with
      | .string s => do
        advance
        pure s
      | _ => name
    if key ∈ seen then failAt t.pos (.duplicateProperty key)
    expectSymbol ":"
    let value ← expression fuel scope 0
    if ← symbol "," then return (key, value) :: (← fields fuel scope (key :: seen))
    expectSymbol "\x7d"
    return [(key, value)]

/-- The blocks of a template and the text between them. -/
def pieces : Nat → Context → Parser (List Expr)
  | 0, _ => failHere .tooDeep
  | fuel + 1, scope => do
    let t ← peek
    match t.kind with
    | .piece s =>
      advance
      let body ← statements fuel (← inside scope).opened false
      expectSymbol "\x7d"
      return .literal (.string s) t.pos :: .stmt (.block body) t.pos :: (← pieces fuel scope)
    | .string s =>
      advance
      return [.literal (.string s) t.pos]
    | _ => failHere .unterminatedText

def primary : Nat → Context → Parser Expr
  | 0, _ => failHere .tooDeep
  | fuel + 1, scope => do
    let t ← peek
    let constant (value : Literal) : Parser Expr := do
      advance
      return .literal value t.pos
    match t.kind with
    | .int n => constant (.int n)
    | .float x => constant (.float x)
    | .char c => constant (.char c)
    | .string s => constant (.string s)
    | .keyword "true" => constant (.bool true)
    | .keyword "false" => constant (.bool false)
    | .piece _ => return .template (← pieces fuel scope) t.pos
    | .symbol "(" =>
      advance
      if (← peek).pos = t.pos.after '(' && (← symbol ")") then return .literal .unit t.pos
      let e ← expression fuel (← inside scope) 0
      expectSymbol ")"
      return e
    | .symbol "[" =>
      advance
      return .array (← arguments fuel (← inside scope) "]") t.pos
    | .symbol "#\x7b" =>
      advance
      return .map (← fields fuel (← inside scope) []) t.pos
    | .symbol "\x7b" | .keyword "if" | .keyword "switch" | .keyword "while" | .keyword "loop"
    | .keyword "do" | .keyword "for" =>
      let (s, _) ← statement fuel (← inside scope)
      return .stmt s t.pos
    | .symbol "||" =>
      advance
      closure fuel scope [] t.pos
    | .symbol "|" =>
      advance
      closure fuel scope (← params "|" (← get).rest.length) t.pos
    | .name n =>
      advance
      if ← symbol "(" then return .call n (← arguments fuel (← inside scope) ")") t.pos
      let isFunction := (← get).functions.any (·.name == n)
      match scope.visible.lookup n with
      | some known =>
        if known.depth = scope.depth then return scope.var n t.pos
        if isFunction then return .function n t.pos
        modify fun s => { s with captured := s.captured ++ [(n, known.depth)] }
        return scope.var n t.pos
      | none =>
        if isFunction then return .function n t.pos
        failAt t.pos (.unknownVariable n)
    | .reserved "this" =>
      if scope.inCall then
        advance
        return .this t.pos
      else failHere (.reservedWord "this")
    | .reserved w =>
      advance
      if w ∈ Word.callableWords && (← symbol "(") then
        return .call w (← arguments fuel (← inside scope) ")") t.pos
      else failAt t.pos (.reservedWord w)
    | _ => failHere .unexpected

/-- The body of a closure.  It sees the variables around it; those that it names are captured, and
those from outside of the closure around it are captured by that closure too. -/
def closure : Nat → Context → List String → Pos → Parser Expr
  | 0, _, _, _ => failHere .tooDeep
  | fuel + 1, scope, names, pos => do
    match repeated? names with
    | some n => failAt pos (.duplicateParameter n)
    | none =>
      let before := (← get).captured
      modify fun s => { s with captured := [] }
      let inner := { ← inside scope with
        inLoop := false, inCall := true, barred := false, depth := scope.depth + 1 }
      let (body, _) ← statement fuel (inner.opened.pushAll names)
      let named := (← get).captured.eraseDups
      modify fun s => { s with captured := before ++ named.filter (·.2 < scope.depth) }
      return .closure ((named.map (·.1)).eraseDups.map fun n => (n, scope.var n pos)) names body pos

def condition : Nat → Context → Parser Expr
  | 0, _ => failHere .tooDeep
  | fuel + 1, scope => do
    let t ← peek
    if t.kind = .symbol "\x7b" then failAt t.pos (.expected "a condition")
    let e ← expression fuel scope 0
    if isNoCondition e then failAt e.pos (.expected "a condition")
    return e

/-- What a loop goes through. -/
def source : Nat → Context → Parser Expr
  | 0, _ => failHere .tooDeep
  | fuel + 1, scope => do
    let t ← peek
    if t.kind = .symbol "\x7b" then failAt t.pos (.expected "items")
    let e ← expression fuel scope 0
    if isNoSource e then failAt e.pos (.expected "items")
    return e

/-- The values of a case, with bars between them. -/
def patterns : Nat → Context → Parser (List Literal)
  | 0, _ => failHere .tooDeep
  | fuel + 1, scope => do
    let e ← expression fuel { scope with barred := true } 0
    match literal? e with
    | none => failAt e.pos (.expected "a value")
    | some l =>
      if ← symbol "|" then return l :: (← patterns fuel scope)
      return [l]

/-- Statements in braces. -/
def block : Nat → Context → Parser Stmt
  | 0, _ => failHere .tooDeep
  | fuel + 1, scope => do
    expectSymbol "\x7b"
    let body ← statements fuel (← inside scope).opened false
    expectSymbol "\x7d"
    return .block body

/-- What follows the word that opens a branch. -/
def branch : Nat → Context → Parser Stmt
  | 0, _ => failHere .tooDeep
  | fuel + 1, scope => do
    let cond ← condition fuel scope
    let yes ← block fuel scope
    if ← keyword "else" then
      if ← keyword "if" then
        return .branch cond yes (some (← branch fuel (← inside scope)))
      else return .branch cond yes (some (← block fuel scope))
    else return .branch cond yes none

/-- The cases of a switch; the case for all other values comes last.  The flag tells that a range
came before, after which no single integer may come. -/
def cases : Nat → Context → Bool → Parser (List Case × Option Stmt)
  | 0, _, _ => failHere .tooDeep
  | fuel + 1, scope, ranged => do
    if ← symbol "\x7d" then return ([], none)
    let t ← peek
    let otherwise ← symbol "_"
    let chosen ← if otherwise then pure [] else patterns fuel scope
    if hasLateInteger ranged chosen then failAt t.pos .unexpected
    let guarded ← if otherwise then pure false else keyword "if"
    let cond ← if guarded then some <$> condition fuel scope else pure none
    expectSymbol "=>"
    let (body, _) ← statement fuel scope
    let comma ← symbol ","
    unless comma || standsAlone body || (← peek).kind = .symbol "\x7d" do
      failHere (.expected ",")
    if otherwise then
      expectSymbol "\x7d"
      return ([], some body)
    let (rest, last) ← cases fuel scope (ranged || chosen.any (·.isRange))
    return ((chosen, cond, body) :: rest, last)

/-- An expression, unless what is around it ends. -/
def optional : Nat → Context → Parser (Option Expr)
  | 0, _ => failHere .tooDeep
  | fuel + 1, scope => do
    if ← atClose then return none
    return some (← expression fuel scope 0)

/-- A statement, and the scope after it. -/
def statement : Nat → Context → Parser (Stmt × Context)
  | 0, _ => failHere .tooDeep
  | fuel + 1, scope => do
    let t ← peek
    let looping := { scope with inLoop := true }
    match t.kind with
    | .symbol "\x7b" => return (← block fuel scope, scope)
    | .keyword "let" | .keyword "const" =>
      advance
      let n ← name
      let value ← if ← symbol "=" then some <$> expression fuel scope 0 else pure none
      let constant : Bool := t.kind = .keyword "const"
      let (place, after) := scope.declare n constant
      return (.declare n constant place value, after)
    | .keyword "if" =>
      advance
      return (← branch fuel scope, scope)
    | .keyword "switch" =>
      advance
      let subject ← expression fuel scope 0
      expectSymbol "\x7b"
      let (listed, otherwise) ← cases fuel (← inside scope) false
      return (.switch subject listed otherwise, scope)
    | .keyword "while" =>
      advance
      let cond ← condition fuel scope
      return (.loop (some cond) (← block fuel looping), scope)
    | .keyword "loop" =>
      advance
      return (.loop none (← block fuel looping), scope)
    | .keyword "do" =>
      advance
      let body ← block fuel looping
      let goOn ← keyword "while"
      unless goOn do expectKeyword "until"
      return (.again body (← condition fuel scope) goOn, scope)
    | .keyword "for" =>
      advance
      if ← symbol "(" then
        let item ← name
        expectSymbol ","
        let counter ← name
        expectSymbol ")"
        if item = counter then failAt t.pos (.duplicateParameter item)
        expectKeyword "in"
        let items ← source fuel scope
        let body ← block fuel (looping.pushAll [counter, item])
        return (.each item (some counter) items body, scope)
      else
        let item ← name
        expectKeyword "in"
        let items ← source fuel scope
        let body ← block fuel (looping.pushAll [item])
        return (.each item none items body, scope)
    | .keyword "break" =>
      advance
      unless scope.inLoop do failAt t.pos .misplacedBreak
      return (.leave (← optional fuel scope), scope)
    | .keyword "continue" =>
      advance
      unless scope.inLoop do failAt t.pos .misplacedBreak
      return (.skip, scope)
    | .keyword "return" =>
      advance
      return (.giveBack (← optional fuel scope), scope)
    | .keyword "throw" =>
      advance
      return (.raise (← optional fuel scope) t.pos, scope)
    | .keyword "try" =>
      advance
      let body ← block fuel scope
      expectKeyword "catch"
      if ← symbol "(" then
        let n ← name
        expectSymbol ")"
        return (.attempt body (some n) (← block fuel (scope.push n false)), scope)
      else return (.attempt body none (← block fuel scope), scope)
    | .keyword "fn" | .keyword "private" => failHere .misplacedFunction
    | .symbol ";" =>
      advance
      return (.nothing, scope)
    | _ =>
      let e ← expression fuel scope 0
      let sign ← peek
      match assignment? sign.kind with
      | none => return (.expr e, scope)
      | some op =>
        advance
        let value ← expression fuel scope 0
        checkTarget scope e
        return (.assign op e value sign.pos, scope)

/-- What follows the word that opens a function. -/
def function : Nat → Parser Unit
  | 0 => failHere .tooDeep
  | fuel + 1 => do
    let t ← peek
    let n ← name
    expectSymbol "("
    let names ← params ")" (← get).rest.length
    match repeated? names with
    | some p => failAt t.pos (.duplicateParameter p)
    | none =>
      let known := (← get).functions
      if known.any fun f => f.name == n && f.params.length == names.length then
        failAt t.pos (.duplicateFunction n)
      let body ← block fuel (.ofParams functionRoom names)
      modify fun s => { s with functions := s.functions ++ [⟨n, names, body⟩] }

/-- Statements up to the end of a block, or of the script if they stand outside of all blocks.
Functions may stand there only. -/
def statements : Nat → Context → Bool → Parser (List Stmt)
  | 0, _, _ => failHere .tooDeep
  | fuel + 1, scope, outermost => do
    match (← peek).kind with
    | .done => return []
    | .symbol "\x7d" => if outermost then failHere .unexpected else return []
    | .symbol ";" =>
      advance
      statements fuel scope outermost
    | .keyword "fn" | .keyword "private" =>
      unless outermost do failHere .misplacedFunction
      if ← keyword "private" then expectKeyword "fn" else advance
      function fuel
      statements fuel scope outermost
    | _ =>
      let (s, after) ← statement fuel scope
      unless (← atEnd) || standsAlone s do failHere (.expected ";")
      return s :: (← statements fuel after outermost)

end

end Parser

/-- The script that a source text is. -/
def parse (source : String) : Except SyntaxFault Program := do
  let tokens ← tokenize source.toList
  match (Parser.statements (16 * tokens.length + 16) { room := Parser.globalRoom } true).run
      { rest := tokens } with
  | .ok main s => return { functions := s.functions, main }
  | .error fault _ => throw fault

end Dialogue.Script
