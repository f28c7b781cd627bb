import Dialogue.Script.Operators
import Dialogue.Script.Place
import Dialogue.Script.Purity
import Dialogue.Script.Word

/-!
# Scripts made simple before they run

The statements outside of functions and the bodies of functions are simplified once, before a
script runs.  Where a constant has a value that is known, the value stands in the place of its
name; operators on known values are carried out; and what does nothing but compute a value that
nobody looks at is dropped, with any fault it would have had.  `x = x + y` becomes `x += y`.

A block is simplified in rounds until a round changes nothing.  What a block of its own declares
is seen by nothing after it, so declarations without effects are dropped from its end.  They are
dropped also if a last statement without effects names them: a name then leads to the variable
that stands where the dropped one stood, counted from the innermost.

The bodies of closures are left as they are.  A closure that names a constant with a known value
gets the value itself, so it starts from it each time it is called.
-/

namespace Dialogue.Script

namespace Simplified

/-- Simplifying notes whether anything was changed. -/
abbrev Simplify := StateM Bool

def changed {α : Type} (a : α) : Simplify α := do
  set true
  return a

/-! ### Known values -/

/-- The variables that can be seen, innermost first, with their values where these are known. -/
abbrev Constants := List (String × Option Literal)

def Constants.value? (k : Constants) (name : String) : Option Literal := (k.lookup name).join

/-- A declaration makes a value known if it is that of a constant. -/
def Constants.declare (k : Constants) (name : String) (constant : Bool) (value : Option Expr) :
    Constants :=
  match constant, value with
  | true, some (.literal l _) => (name, some l) :: k
  | true, none => (name, some .unit) :: k
  | _, _ => (name, none) :: k

def literal? : Expr → Option Literal
  | .literal l _ => some l
  | _ => none

def literalField? : String × Expr → Option (String × Literal)
  | (n, .literal l _) => some (n, l)
  | _ => none

/-- The expression at another place. -/
def atPlace (pos : Pos) : Expr → Expr
  | .literal l _ => .literal l pos
  | .var n away _ => .var n away pos
  | .function n _ => .function n pos
  | .template parts _ => .template parts pos
  | .array items _ => .array items pos
  | .map fields _ => .map fields pos
  | e => e

/-- A value that operators make known values of, as it is written down. -/
def ofValue? : Value → Option Literal
  | .unit => some .unit
  | .bool b => some (.bool b)
  | .int n => some (.int n)
  | .float x => some (.float x)
  | .char c => some (.char c)
  | .string s => some (.string s)
  | _ => none

/-- An operator on these values is carried out at once.  Arrays, maps, ranges and functions are left
to the run of the script, and so is a text that is joined with anything but a text or a
character. -/
def isFolded (op : Binary) (x y : Literal) : Bool :=
  match x, y with
  | .array _, _ | .map _, _ | .function _, _ | .range _ _ _, _
  | _, .array _ | _, .map _ | _, .function _ | _, .range _ _ _ => false
  | .string _, .string _ | .string _, .char _ | .char _, .string _ => true
  | .string _, _ | _, .string _ => op != .add
  | _, _ => true

/-! ### Expressions whose parts are simple -/

def template (parts : List Expr) (pos : Pos) : Simplify Expr :=
  match parts.mapM literal? with
  | some ls =>
    changed (.literal (.string (ls.foldl (fun s l => s ++ (Value.ofLiteral l).told) "")) pos)
  | none => return .template parts pos

def array (items : List Expr) (pos : Pos) : Simplify Expr :=
  match items.mapM literal? with
  | some ls => changed (.literal (.array ls) pos)
  | none => return .array items pos

def map (fields : List (String × Expr)) (pos : Pos) : Simplify Expr :=
  match fields.mapM literalField? with
  | some ls => changed (.literal (.map (ls.mergeSort fun a b => a.1 ≤ b.1)) pos)
  | none => return .map fields pos

/-- A variable, or its value if that is known. -/
def var (k : Constants) (name : String) (away : Option Nat) (pos : Pos) : Simplify Expr :=
  match k.value? name with
  | some l => changed (.literal l pos)
  | none => return .var name away pos

def binary (op : Binary) (left right : Expr) (pos : Pos) : Simplify Expr :=
  let folded? : Option Literal := do
    let x ← literal? left
    let y ← literal? right
    if isFolded op x y then
      match Operators.written op (Value.ofLiteral x) (Value.ofLiteral y) with
      | .ok v => ofValue? v
      | .error _ => none
    else none
  match folded? with
  | some l => changed (.literal l pos)
  | none => return .binary op left right pos

/-- A choice that one of its operands decides. -/
def choice (op : Choice) (left right : Expr) (pos : Pos) : Simplify Expr :=
  match op, left, right with
  | .and, .literal (.bool true) _, e | .or, .literal (.bool false) _, e => changed e
  | .and, e@(.literal (.bool false) _), _ | .or, e@(.literal (.bool true) _), _ => changed e
  | .and, e, .literal (.bool true) _ | .or, e, .literal (.bool false) _ => changed e
  | .and, e, last@(.literal (.bool false) _) | .or, e, last@(.literal (.bool true) _) =>
    if e.isPure then changed last else return .choice op e last pos
  | .coalesce, .literal .unit _, e => changed e
  | .coalesce, e@(.literal _ _), _ => changed e
  | _, _, _ => return .choice op left right pos

def unary (op : Unary) (arg : Expr) (pos : Pos) : Simplify Expr :=
  match op, arg with
  | .not, .literal (.bool b) p => changed (.literal (.bool !b) p)
  | _, _ => return .unary op arg pos

def range (first last : Expr) (inclusive : Bool) (pos : Pos) : Simplify Expr :=
  match first, last with
  | .literal (.int a) _, .literal (.int b) _ => changed (.literal (.range a b inclusive) pos)
  | _, _ => return .range first last inclusive pos

def call (name : String) (args : List Expr) (pos : Pos) : Simplify Expr :=
  match name, args with
  | "type_of", [.literal l _] => changed (.literal (.string (Value.ofLiteral l).typeName) pos)
  | "Fn", [.literal (.string s) _] =>
    if Word.isFunctionName s then changed (.literal (.function s) pos)
    else return .call name args pos
  | _, _ => return .call name args pos

/-- The item of an array that an index stands for. -/
def item? (items : List Expr) (index : Int) : Option Expr :=
  (Value.position? items.length index).bind (items[·]?)

/-- The item of a text or the bit of a number that an index stands for. -/
def known? (l : Literal) (index : Int) : Option Literal :=
  match l with
  | .string _ | .int _ => ((Value.ofLiteral l).item (.int index)).toOption.bind ofValue?
  | _ => none

/-- What a chain is known to lead to: one step into a value that is written down is taken at
once. -/
def taken? (base : Expr) (steps : List Step) : Option Expr :=
  match base, steps with
  | .literal .unit p, .present :: _ => some (.literal .unit p)
  | .array items p, [.index (.literal (.int i) _) _] =>
    if Expr.arePure items then (item? items i).map (atPlace p) else none
  | .map fields p, [.property n _] | .map fields p, [.index (.literal (.string n) _) _] =>
    if Expr.fieldsPure fields then
      some (atPlace p ((fields.lookup n).getD (.literal .unit p)))
    else none
  | .literal l p, [.index (.literal (.int i) _) _] => (known? l i).map (.literal · p)
  | .literal l _, [.method "type_of" [] p] =>
    some (.literal (.string (Value.ofLiteral l).typeName) p)
  | .literal _ _, [.method "is_shared" [] p] => some (.literal (.bool false) p)
  | _, _ => none

/-! ### Blocks -/

/-- The statements that a statement consists of. -/
def parts : Stmt → List Stmt
  | .block body => body
  | s => [s]

/-- A statement as an expression. -/
def asExpr : Stmt → Expr
  | .expr e => e
  | s => .stmt s {}

/-- An expression as a statement. -/
def asStmt : Expr → Stmt
  | .stmt s _ => s
  | e => .expr e

/-- A block that declares nothing. -/
def isOpen : Stmt → Bool
  | .block body => !body.any (·.isDeclaration)
  | _ => false

mutual

/-- The statements of a statement, where blocks that declare nothing are opened. -/
def opened : Stmt → List Stmt
  | .block body => if body.any (·.isDeclaration) then [.block body] else allOpened body
  | s => [s]

def allOpened : List Stmt → List Stmt
  | [] => []
  | s :: rest => opened s ++ allOpened rest

end

/-- The statements up to the first that cuts the block short. -/
def reached : List Stmt → List Stmt
  | [] => []
  | s :: rest => if s.cutsShort then [s] else s :: reached rest

/-- A statement that nothing comes of; `inner` tells that nothing after the block sees what is
declared in it. -/
def isIdle (inner : Bool) (s : Stmt) : Bool := s.isPure || inner && s.isPureDeclaration

/-- Declarations in front of this statement are not dropped: it has effects, or it gives a value
that hangs on them.  Of the declarations themselves, one with a value that is known holds those in
front of it. -/
def holds (inner : Bool) (s : Stmt) : Bool :=
  !isIdle inner s ||
    match s with
    | .declare _ _ _ none => true
    | .declare _ _ _ (some e) => e.isConstant
    | .expr e => !e.isConstant
    | _ => false

/-- The statements without those that nothing comes of.  The last one stays if its value is
wanted, and of the declarations those stay that a later statement holds. -/
def sifted (wanted inner : Bool) (ss : List Stmt) : List Stmt :=
  let last := ss.length - 1
  let held := (ss.zipIdx.reverse.find? fun (s, _) => holds inner s).elim 0 (·.2)
  let stays : Stmt × Nat → Bool := fun (s, i) =>
    wanted && i == last || !(isIdle inner s && held ≤ i || s.isPure)
  (ss.zipIdx.filter stays).map (·.1)

/-- One step in simplifying the end of a block whose value is wanted; the last statement comes
first here.  `gives` tells that the value of the block is what the function gives back. -/
def trimmed? (inner gives : Bool) : List Stmt → Option (List Stmt)
  | [] => none
  | .giveBack none :: rest =>
    if gives then
      match rest with
      | s :: _ => some (if s.givesValue then .nothing :: rest else rest)
      | [] => some []
    else none
  | .giveBack (some e) :: rest => if gives then some (.expr e :: rest) else none
  | last :: rest =>
    if last.givesValue || !isIdle inner last then none
    else
      match rest with
      | s :: _ =>
        if !s.givesValue then some rest
        else if last matches .nothing then none
        else some (.nothing :: rest)
      | [] => some []

/-- The end of a block made simple.  A step that does not shorten the block leaves nothing or an
expression at its end, and after that comes at most one more. -/
def trimmed (inner gives : Bool) : Nat → List Stmt → List Stmt
  | 0, ss => ss
  | fuel + 1, ss =>
    match trimmed? inner gives ss with
    | some ss => trimmed inner gives fuel ss
    | none => ss

/-- The end of a block made simple. -/
def withEnd (wanted inner gives : Bool) (ss : List Stmt) : Simplify (List Stmt) :=
  let backwards := ss.reverse
  if wanted then
    match trimmed? inner gives backwards with
    | some less => changed (trimmed inner gives (2 * ss.length) less).reverse
    | none => return ss
  else
    let less := backwards.dropWhile (isIdle inner)
    if less.length < ss.length then changed less.reverse else return ss

/-- Some of the statements; fewer are a change. -/
def fewer (less all : List Stmt) : Simplify (List Stmt) :=
  if less.length < all.length then changed less else return all

/-! ### Cases -/

/-- The case has a condition that is not known to hold. -/
def isDoubtful (c : Case) : Bool :=
  match c.2.1 with
  | none | some (.literal (.bool true) _) => false
  | some _ => true

/-- The case has a condition that is known not to hold. -/
def isHopeless (c : Case) : Bool :=
  match c.2.1 with
  | some (.literal (.bool false) _) => true
  | _ => false

/-- The cases that name a value, each as often as it does. -/
def naming (v : Value) (listed : List Case) : List Case :=
  listed.flatMap fun c => (c.1.filter (Operators.isLiteral · v)).map fun _ => c

/-- The ranges of cases, each with its case. -/
def ranges (listed : List Case) : List (Literal × Case) :=
  listed.flatMap fun c => (c.1.filter (·.isRange)).map fun r => (r, c)

/-- What is known of a switch on a known value. -/
inductive Chosen where
  | case (c : Case)
  | otherwise
  /-- one of these, by their conditions -/
  | among (listed : List Case)

/-- What a switch on a known value chooses.  Of several cases that name it, those with conditions
are passed over; so are cases with ranges, unless the value lies in one of several ranges some of
which have conditions. -/
def chosen (v : Value) (listed : List Case) : Chosen :=
  let ranged := ranges listed
  let inRange : Chosen :=
    if ranged.length = 1 || ranged.all (!isDoubtful ·.2) then
      match ranged.find? (Operators.isInRange ·.1 v) with
      | some (_, c) => .case c
      | none => .otherwise
    else .among ((ranged.filter (Operators.isInRange ·.1 v)).map fun (r, c) => ([r], c.2))
  match naming v listed with
  | [] => inRange
  | [c] => .case c
  | cs =>
    match cs.find? (!isDoubtful ·) with
    | some c => .case c
    | none => inRange

/-! ### Everything -/

mutual

def expr (k : Constants) : Nat → Expr → Simplify Expr
  | 0, e => return e
  | fuel + 1, e => do
    match e with
    | .template ps pos => template (← exprs k fuel ps) pos
    | .array items pos => array (← exprs k fuel items) pos
    | .map fields pos => map (← fieldsOf k fuel fields) pos
    | .var n away pos => var k n away pos
    | .closure captured params body pos =>
      return .closure (← fieldsOf k fuel captured) params body pos
    | .call name args pos => call name (← exprs k fuel args) pos
    | .chain base ss pos =>
      match taken? base ss with
      | some e => changed e
      | none =>
        let base ←
          match base with
          | .var n away p => pure (.var n away p)
          | e => expr k fuel e
        return .chain base (← steps k fuel ss) pos
    | .unary op arg pos => unary op (← expr k fuel arg) pos
    | .binary op left right pos => binary op (← expr k fuel left) (← expr k fuel right) pos
    | .choice op left right pos => choice op (← expr k fuel left) (← expr k fuel right) pos
    | .range first last inclusive pos =>
      range (← expr k fuel first) (← expr k fuel last) inclusive pos
    | .stmt body pos =>
      match parts body with
      | [] => changed (.literal .unit pos)
      | [.expr e] => changed (← expr k fuel e)
      | ss =>
        match ← block k true true false fuel ss with
        | [.expr e] => changed e
        | ss => return .stmt (.block ss) pos
    | e => return e

def exprs (k : Constants) : Nat → List Expr → Simplify (List Expr)
  | 0, es => return es
  | _ + 1, [] => return []
  | fuel + 1, e :: rest => return (← expr k fuel e) :: (← exprs k fuel rest)

def fieldsOf (k : Constants) : Nat → List (String × Expr) → Simplify (List (String × Expr))
  | 0, fields => return fields
  | _ + 1, [] => return []
  | fuel + 1, (n, e) :: rest => return (n, ← expr k fuel e) :: (← fieldsOf k fuel rest)

def steps (k : Constants) : Nat → List Step → Simplify (List Step)
  | 0, ss => return ss
  | _ + 1, [] => return []
  | fuel + 1, s :: rest => do
    let s ←
      match s with
      | .index key pos => pure (.index (← expr k fuel key) pos)
      | .method n args pos => pure (.method n (← exprs k fuel args) pos)
      | s => pure s
    return s :: (← steps k fuel rest)

/-- A statement; `wanted` tells whether its value may be looked at. -/
def stmt (k : Constants) (wanted : Bool) : Nat → Stmt → Simplify Stmt
  | 0, s => return s
  | fuel + 1, s => do
    match s with
    | .expr (.stmt body _) =>
      match parts body with
      | [] => changed .nothing
      | ss => changed (.block (← block k true true false fuel ss))
    | .expr e => return .expr (← expr k fuel e)
    | .declare n constant place (some e) =>
      return .declare n constant place (some (← expr k fuel e))
    | .assign none target@(.var n _ _) value@(.binary op (.var m _ _) right signPos) pos =>
      if n = m && op.assigns then
        changed (.assign (some op) target (← expr k fuel right) signPos)
      else return .assign none target (← expr k fuel value) pos
    | .assign op (.chain base ss p) value pos =>
      return .assign op (.chain base (← steps k fuel ss) p) (← expr k fuel value) pos
    | .assign op target value pos => return .assign op target (← expr k fuel value) pos
    | .block [] => changed .nothing
    | .block body =>
      match ← block k wanted true false fuel body with
      | [] => changed .nothing
      | [s] => if s.isDeclaration then return .block [s] else changed s
      | ss => return .block ss
    | .branch cond yes no => branch k wanted fuel cond (parts yes) (no.elim [] parts)
    | .switch subject listed otherwise =>
      match subject with
      | .literal l _ => switchOn k fuel l subject listed otherwise
      | subject =>
        let subject ← expr k fuel subject
        let listed ← cases k fuel listed
        let hopeful := listed.filter (!isHopeless ·)
        if hopeful.length < listed.length then set true
        match otherwise with
        | none => return .switch subject hopeful none
        | some s => return .switch subject hopeful (some (asStmt (← expr k fuel (asExpr s))))
    | .loop (some (.literal (.bool false) _)) _ => changed .nothing
    | .loop (some (.literal (.bool true) _)) body =>
      return .loop none (.block (← block k false true false fuel (parts body)))
    | .loop none body => return .loop none (.block (← block k false true false fuel (parts body)))
    | .loop (some cond) body =>
      let cond ← expr k fuel cond
      return .loop (some cond) (.block (← block k false true false fuel (parts body)))
    | .again body cond goOn =>
      let cond ← expr k fuel cond
      return .again (.block (← block k false true false fuel (parts body))) cond goOn
    | .each item counter source body =>
      let source ← expr k fuel source
      return .each item counter source (.block (← block k false true false fuel (parts body)))
    | .leave (some e) => return .leave (some (← expr k fuel e))
    | .giveBack (some e) => return .giveBack (some (← expr k fuel e))
    | .raise (some e) pos => return .raise (some (← expr k fuel e)) pos
    | .attempt body name handler =>
      let succeeds := Stmt.arePure (parts body)
      let tried ← block k false true false fuel (parts body)
      if succeeds then changed (.block tried)
      else
        let handler ← block k false true false fuel (parts handler)
        return .attempt (.block tried) name (.block handler)
    | s => return s

/-- A branch.  One with nothing in it only looks at its condition. -/
def branch (k : Constants) (wanted : Bool) :
    Nat → Expr → List Stmt → List Stmt → Simplify Stmt
  | 0, cond, yes, no => return .branch cond (.block yes) (some (.block no))
  | fuel + 1, cond, yes, no => do
    let ofBlock (ss : List Stmt) : Stmt := if ss.isEmpty then .nothing else .block ss
    match cond, yes, no with
    | cond, [], [] =>
      let cond ← expr k fuel cond
      changed (if wanted then .block [.expr cond, .nothing] else .expr cond)
    | .literal (.bool true) _, yes, _ =>
      changed (ofBlock (← block k wanted true false fuel yes))
    | .literal (.bool false) _, _, no =>
      changed (ofBlock (← block k wanted true false fuel no))
    | cond, yes, no =>
      let cond ← expr k fuel cond
      let yes ← block k wanted true false fuel yes
      let no ← block k wanted true false fuel no
      return .branch cond (.block yes) (if no.isEmpty then none else some (.block no))

/-- A switch on a known value. -/
def switchOn (k : Constants) :
    Nat → Literal → Expr → List Case → Option Stmt → Simplify Stmt
  | 0, _, subject, listed, otherwise => return .switch subject listed otherwise
  | fuel + 1, l, subject, listed, otherwise => do
    let promoted (s : Stmt) : Simplify Stmt := do
      changed (← stmt k true fuel (.expr (asExpr s)))
    match chosen (Value.ofLiteral l) listed with
    | .case c@(_, some cond, body) =>
      if isDoubtful c then
        let cond ← expr k fuel cond
        let no ←
          match otherwise with
          | some s => do pure (some (.block [← promoted s]))
          | none => pure none
        changed (.branch cond (.block [.expr (asExpr body)]) no)
      else promoted body
    | .case (_, none, body) => promoted body
    | .among left =>
      let count (cs : List Case) : Nat := (cs.map (·.1.length)).foldl (· + ·) 0
      if count left < count listed then set true
      return .switch subject (← cases k fuel left) otherwise
    | .otherwise =>
      match otherwise with
      | some s => promoted s
      | none => changed (.block [])

def cases (k : Constants) : Nat → List Case → Simplify (List Case)
  | 0, cs => return cs
  | _ + 1, [] => return []
  | fuel + 1, (ls, cond, body) :: rest => do
    let cond ←
      match cond with
      | some e => do pure (some (← expr k fuel e))
      | none => pure none
    let body ← expr k fuel (asExpr body)
    return (ls, cond, asStmt body) :: (← cases k fuel rest)

/-- Statements one after the other, each with the constants that are declared before it. -/
def inOrder (k : Constants) (wanted : Bool) : Nat → List Stmt → Simplify (List Stmt)
  | 0, ss => return ss
  | _ + 1, [] => return []
  | fuel + 1, s :: rest => do
    let s ← stmt k wanted fuel s
    let k :=
      match s with
      | .declare n constant _ value => k.declare n constant value
      | _ => k
    return s :: (← inOrder k wanted fuel rest)

/-- Rounds until one changes nothing. -/
def rounds (k : Constants) (wanted inner gives : Bool) : Nat → List Stmt → Simplify (List Stmt)
  | 0, ss => return ss
  | fuel + 1, ss => do
    set false
    let ss ← fewer (reached ss) ss
    let ss ← inOrder k wanted fuel ss
    let ss ← fewer (sifted wanted inner ss) ss
    let ss ← withEnd wanted inner gives ss
    if ← get then changed (← rounds k wanted inner gives fuel ss) else return ss

/-- The statements of a block.  `wanted` tells that its value may be looked at, `inner` that it is
a block of its own, and `gives` that its value is what a function gives back. -/
def block (k : Constants) (wanted inner gives : Bool) : Nat → List Stmt → Simplify (List Stmt)
  | 0, ss => return ss
  | fuel + 1, ss => do
    let before ← get
    let after ← rounds k wanted inner gives fuel (allOpened ss)
    if before || ss.any isOpen then changed after else return after

end

/-- More rounds and deeper nesting than any script has. -/
def fuel : Nat := pow2 62

/-- The statements of a function, or those outside of functions. -/
def whole (ss : List Stmt) : List Stmt := ((block [] true false true fuel ss).run false).1

end Simplified

def Function.simplified (f : Function) : Function :=
  { f with body := .block (Simplified.whole (Simplified.parts f.body)) }

/-- The script as it is run. -/
def Program.simplified (p : Program) : Program :=
  ⟨p.functions.map (·.simplified), Simplified.whole p.main⟩

end Dialogue.Script
