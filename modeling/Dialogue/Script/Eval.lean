import Dialogue.Script.Builtin
import Dialogue.Script.Operators
import Dialogue.Script.State
import Dialogue.Script.Word
import Dialogue.Vocabulary

/-!
# Running scripts

Expressions, statements and calls.  The order in which things are done can be seen, since any
part of an expression may call functions:

* operands come from left to right, and an assigned value comes before what it is assigned to;
* the keys and arguments along a chain come before the value that it steps into;
* a variable or an object that is the first argument of a call is read after the other arguments,
  and `push` changes it.
-/

namespace Dialogue.Script

namespace Eval

/-! ### Loops -/

/-- What a loop goes through. -/
inductive Supply where
  | items (items : List Value)
  | numbers (next last : Int)
  | steps (numbers : Progression)

namespace Supply

def ofValue? : Value → Option Supply
  | .array vs => some (.items vs)
  | .string s => some (.items (s.toList.map .char))
  | .range first last inclusive => some (.numbers first (if inclusive then last + 1 else last))
  | .progression p => some (.steps p)
  | _ => none

/-- The next value.  Integers a step apart end before the first whose successor has more than 64
bits. -/
def next? : Supply → Option (Value × Supply)
  | .items [] => none
  | .items (v :: rest) => some (v, .items rest)
  | .numbers next last => if next < last then some (.int next, .numbers (next + 1) last) else none
  | .steps (.ints next last step) =>
    let after := next + step
    let goesOn := if 0 < step then next < last else last < next
    if goesOn ∧ Operators.minInt ≤ after ∧ after ≤ Operators.maxInt then
      some (.int next, .steps (.ints after last step))
    else none
  | .steps (.floats next last step) =>
    let after := next + step
    if next.less last && next.less after || last.less next && after.less next then
      some (.float next, .steps (.floats after last step))
    else none

end Supply

/-! ### Steps -/

/-- A step whose key or arguments are computed. -/
inductive Taken where
  | key (key : Key)
  | method (name : String) (args : List Value) (argPos pos : Pos)
  | present

/-- The spot before the last key of a chain, and that key; none if a value on the way is missing. -/
def reach (spot : Spot) : List Taken → Except PartFault (Option (Spot × Key))
  | [.key k] => .ok (some (spot, k))
  | .key k :: rest => do reach (← spot.step k) rest
  | .present :: rest => if spot.value.isUnit then .ok none else reach spot rest
  | .method _ _ _ _ :: _ | [] => .ok none

/-! ### Parameters -/

/-- New variables for the parameters of a call, the last of which is innermost. -/
def bind (params : List String) (args : List Value) : Eval Environment := do
  return (← allocateAll (params.zip args)).reverse

/-! ### Expressions, statements and calls -/

mutual

def expr (g : Setting) : Nat → Frame → Expr → Eval Value
  | 0, _, _ => throw .starved
  | fuel + 1, fr, e => do
    tick g
    match e with
    | .literal l _ => return .ofLiteral l
    | .template parts _ => do
      let vs ← exprs g fuel fr parts
      return .string (vs.foldl (fun s v => s ++ v.text) "")
    | .array items _ => return .array (← exprs g fuel fr items)
    | .map fields _ => return .ofFields (← fieldsOf g fuel fr fields)
    | .var name away pos => readCell (← cellOf fr name away pos)
    | .this pos => readCell (← objectOf fr pos)
    | .function name _ => return .function name
    | .closure captured params body _ => do
      let (environment, copies) ← capture g fuel fr captured
      return .closure params body environment copies
    | .call name args pos => call g fuel fr name args pos
    | .chain base ss _ => do
      let taken ← stepsOf g fuel fr ss
      match base with
      | .var name away pos =>
        let cell ← cellOf fr name away pos
        whileInUse cell (do follow g fuel fr (← spotOf cell) taken)
      | .this pos => follow g fuel fr (← spotOf (← objectOf fr pos)) taken
      | e => follow g fuel fr ⟨← expr g fuel fr e, none⟩ taken
    | .unary op arg pos => do
      let v ← expr g fuel fr arg
      ofOperator op.sign [v] pos pos (Operators.unary op v)
    | .binary op left right pos => do
      let x ← expr g fuel fr left
      let y ← expr g fuel fr right
      ofOperator op.sign [x, y] pos none (Operators.binary op x y)
    | .choice .and left right _ => do
      if ← truth (← expr g fuel fr left) left.pos then
        return .bool (← truth (← expr g fuel fr right) right.pos)
      else return .bool false
    | .choice .or left right _ => do
      if ← truth (← expr g fuel fr left) left.pos then return .bool true
      else return .bool (← truth (← expr g fuel fr right) right.pos)
    | .choice .coalesce left right _ => do
      match ← expr g fuel fr left with
      | .unit => expr g fuel fr right
      | v => return v
    | .range first last inclusive pos => do
      let x ← expr g fuel fr first
      let y ← expr g fuel fr last
      match x, y with
      | .int a, .int b => return .range a b inclusive
      | _, _ => fail (.noFunctionFor (if inclusive then "..=" else "..") [x, y]) pos
    | .stmt body _ => stmt g fuel fr body

def exprs (g : Setting) : Nat → Frame → List Expr → Eval (List Value)
  | 0, _, _ => throw .starved
  | _ + 1, _, [] => return []
  | fuel + 1, fr, e :: rest => do
    let v ← expr g fuel fr e
    return v :: (← exprs g fuel fr rest)

def fieldsOf (g : Setting) : Nat → Frame → List (String × Expr) → Eval (List (String × Value))
  | 0, _, _ => throw .starved
  | _ + 1, _, [] => return []
  | fuel + 1, fr, (name, e) :: rest => do
    let v ← expr g fuel fr e
    return (name, v) :: (← fieldsOf g fuel fr rest)

/-- What a closure takes along: the cells of variables, which it shares from now on, and values
that are known. -/
def capture (g : Setting) :
    Nat → Frame → List (String × Expr) → Eval (Environment × List (String × Value))
  | 0, _, _ => throw .starved
  | _ + 1, _, [] => return ([], [])
  | fuel + 1, fr, (name, e) :: rest => do
    match e with
    | .var n away pos =>
      let cell ← cellOf fr n away pos
      share cell
      let (environment, copies) ← capture g fuel fr rest
      return ((name, cell) :: environment, copies)
    | e =>
      let v ← expr g fuel fr e
      let (environment, copies) ← capture g fuel fr rest
      return (environment, (name, v) :: copies)

/-- The keys and arguments of a chain, from left to right. -/
def stepsOf (g : Setting) : Nat → Frame → List Step → Eval (List Taken)
  | 0, _, _ => throw .starved
  | _ + 1, _, [] => return []
  | fuel + 1, fr, s :: rest => do
    let taken ←
      match s with
      | .property name pos => pure (.key (.property name pos))
      | .index e bracket => do pure (.key (.item (← expr g fuel fr e) e.start bracket))
      | .method name args pos => do
        let vs ← exprs g fuel fr args
        pure (.method name vs ((args.head?.map Expr.pos).getD pos) pos)
      | .present => pure .present
    return taken :: (← stepsOf g fuel fr rest)

/-- The value that steps lead to from a spot. -/
def follow (g : Setting) : Nat → Frame → Spot → List Taken → Eval Value
  | 0, _, _, _ => throw .starved
  | _ + 1, _, spot, [] => return spot.value
  | fuel + 1, fr, spot, .key k :: rest => do follow g fuel fr (← ofParts (spot.step k)) rest
  | fuel + 1, fr, spot, .method name args argPos pos :: rest => do
    follow g fuel fr ⟨← method g fuel fr spot name args argPos pos, none⟩ rest
  | fuel + 1, fr, spot, .present :: rest =>
    if spot.value.isUnit then return .unit else follow g fuel fr spot rest

/-- Runs the body of a function or closure in a frame of its own. -/
def run (g : Setting) : Nat → Frame → Callee → Stmt → Pos → Eval Value
  | 0, _, _, _, _ => throw .starved
  | fuel + 1, fr, callee, body, pos => do
    tick g
    if maxCalls < fr.level then fail .tooManyCalls pos
    match ← attempt (stmt g fuel fr body) with
    | .ok v => return v
    | .error (.giveBack v) => return v
    | .error (.fault f) => throw (.fault (f.through callee pos))
    | .error e => throw e

/-- Runs the body of a function with what is kept at a spot as its object. -/
def runOn (g : Setting) : Nat → Frame → Spot → Callee → Stmt → Pos → Eval Value
  | 0, _, _, _, _, _ => throw .starved
  | fuel + 1, fr, spot, callee, body, pos => do
    let object ← allocate
      { value := spot.value, constant := if ← isFixed spot then some spot.value else none }
    let ending ← attempt (run g fuel { fr with object := some object } callee body pos)
    store spot (← readCell object) pos
    match ending with
    | .ok v => return v
    | .error e => throw e

/-- Calls a function by its name: one of the script, of the language or of the vocabulary. -/
def callNamed (g : Setting) : Nat → Frame → String → List Value → Pos → Eval Value
  | 0, _, _, _, _ => throw .starved
  | fuel + 1, fr, name, args, pos => do
    match g.program.function? name args.length with
    | some f =>
      if f.body.isEmpty then return .unit
      run g fuel { environment := ← bind f.params args, level := fr.level + 1 }
        (.function name) f.body pos
    | none => native g fuel fr name args pos

/-- Calls a function by its name in the way of a method: a function of the script sees the object,
and of the other functions `push` changes it. -/
def callNamedOn (g : Setting) : Nat → Frame → Spot → String → List Value → Pos → Eval Value
  | 0, _, _, _, _, _ => throw .starved
  | fuel + 1, fr, spot, name, args, pos => do
    match g.program.function? name args.length with
    | some f =>
      if f.body.isEmpty then return .unit
      runOn g fuel { environment := ← bind f.params args, level := fr.level + 1 }
        spot (.function name) f.body pos
    | none => nativeOn g fuel fr spot name args pos

/-- Calls a function that is none of the script, with its first argument in place. -/
def nativeOn (g : Setting) : Nat → Frame → Spot → String → List Value → Pos → Eval Value
  | 0, _, _, _, _, _ => throw .starved
  | fuel + 1, fr, spot, name, args, pos => do
    match name, spot.value, args with
    | "push", .array items, [x] =>
      if ← isFixed spot then fail (.constantObject name) pos
      store spot (.array (items ++ [x])) pos
      return .unit
    | _, v, _ => native g fuel fr name (v :: args) pos

/-- Calls a function of the language or of the vocabulary. -/
def native (g : Setting) : Nat → Frame → String → List Value → Pos → Eval Value
  | 0, _, _, _, _ => throw .starved
  | fuel + 1, fr, name, args, pos => do
    match name, args with
    | "exit", [] | "exit", [_] => throw .exit
    | "print", [] | "print", [_] =>
      tell ⟨.info, (args.head?.map Value.text).getD "", [("unit", g.unit)]⟩
      return .unit
    | "debug", [] | "debug", [_] =>
      tell ⟨.debug, (args.head?.map Value.debug).getD "",
        [("unit", g.unit), ("position", pos.text)]⟩
      return .unit
    | "contains", [container, item] =>
      return .bool (← ofOperator name args pos pos (Operators.contains container item))
    | _, _ =>
      match Builtin.answer? name args with
      | some (.ok v) => return v
      | some (.error f) =>
        throw (.fault { cause := .misused f, calls := [(.language name, none)], pos })
      | none =>
        match Vocabulary.find? name args with
        | some (.record a) =>
          record a
          return .unit
        | some (.guarded condition body) =>
          guarded condition (discard (apply g fuel (fr.level + 2) body [] pos))
          return .unit
        | some (.answer s) => return .string s
        | some (.refuse why) => fail (.raised (.string why.message)) pos
        | none => fail (.noFunctionFor name args) pos

/-- Calls a function value, a closure at the level given. -/
def apply (g : Setting) : Nat → Nat → Value → List Value → Pos → Eval Value
  | 0, _, _, _, _ => throw .starved
  | fuel + 1, level, f, args, pos => do
    match f with
    | .closure params body environment copies =>
      unless params.length = args.length do fail (.noFunctionFor "anon" args) pos
      let own := (← bind params args) ++ (← allocateAll copies)
      run g fuel { environment := own ++ environment, level } .closure body pos
    | .function name => callNamed g fuel { level } name args pos
    | .given f first => apply g fuel level f (first ++ args) pos
    | v => fail (.misused (.wrongType v.typeName "Fn")) pos

/-- Calls a function value with what is kept at a spot as its object. -/
def applyOn (g : Setting) : Nat → Nat → Spot → Value → List Value → Pos → Eval Value
  | 0, _, _, _, _, _ => throw .starved
  | fuel + 1, level, spot, f, args, pos => do
    match f with
    | .closure params body environment copies =>
      unless params.length = args.length do fail (.noFunctionFor "anon" args) pos
      let own := (← bind params args) ++ (← allocateAll copies)
      runOn g fuel { environment := own ++ environment, level } spot .closure body pos
    | .function name => callNamedOn g fuel { level } spot name args pos
    | .given f first => applyOn g fuel level spot f (first ++ args) pos
    | v => fail (.misused (.wrongType v.typeName "Fn")) pos

/-- Calls a method.  `call` calls a function value, `curry` gives it arguments in front, and a
function value in a field of a map is called by the name of the field. -/
def method (g : Setting) : Nat → Frame → Spot → String → List Value → Pos → Pos → Eval Value
  | 0, _, _, _, _, _, _ => throw .starved
  | fuel + 1, fr, spot, name, args, argPos, pos => do
    match name, spot.value, args with
    | "curry", v, args => do
      callable v pos
      return .given v args
    | "is_shared", _, [] =>
      match spot.home with
      | some (cell, []) => return .bool (← cellAt cell).shared
      | _ => return .bool false
    | "call", .map _, f :: rest => do
      callable f argPos
      applyOn g fuel fr.level spot f rest pos
    | "call", v, args => do
      if v.isCallable then apply g fuel fr.level v args pos
      else
        match args with
        | [] => fail (.misused (.wrongType v.typeName "Fn")) pos
        | f :: rest => do
          callable f argPos
          applyOn g fuel fr.level spot f rest pos
    | _, .map fields, args =>
      match fields.lookup name with
      | some f =>
        if f.isCallable then applyOn g fuel fr.level spot f args pos
        else callNamedOn g fuel fr spot name args pos
      | none => callNamedOn g fuel fr spot name args pos
    | _, _, args => callNamedOn g fuel fr spot name args pos

/-- A call as it is written. -/
def call (g : Setting) : Nat → Frame → String → List Expr → Pos → Eval Value
  | 0, _, _, _, _ => throw .starved
  | fuel + 1, fr, name, args, pos => do
    match name, args with
    | "call", first :: rest => do
      let f ← expr g fuel fr first
      callable f first.start
      apply g fuel fr.level f (← exprs g fuel fr rest) pos
    | "curry", first :: second :: rest => do
      let f ← expr g fuel fr first
      callable f first.start
      return .given f (← exprs g fuel fr (second :: rest))
    | "Fn", [arg] => do
      let s ← textOf (← expr g fuel fr arg) arg.start
      if Word.isFunctionName s then return .function s else fail (.noFunction s) arg.start
    | "is_shared", [.var n away p] => do
      return .bool (← cellAt (← cellOf fr n away p)).shared
    | "is_shared", [arg] => do
      let _ ← expr g fuel fr arg
      return .bool false
    | "is_def_var", [arg] => do
      let s ← textOf (← expr g fuel fr arg) arg.start
      return .bool (fr.environment.lookup s).isSome
    | "is_def_fn", [arg, count] => do
      let s ← textOf (← expr g fuel fr arg) arg.start
      match ← expr g fuel fr count with
      | .int n => return .bool (0 ≤ n && (g.program.function? s n.toNat).isSome)
      | v => fail (.misused (.wrongType v.fullTypeName "i64")) count.start
    | _, .var n away p :: rest => do
      let vs ← exprs g fuel fr rest
      let cell ← cellOf fr n away p
      let c ← cellAt cell
      match g.program.function? name args.length with
      | some _ => callNamed g fuel fr name (c.value :: vs) pos
      | none =>
        let kept := !c.shared && c.constant.isNone
        nativeOn g fuel fr ⟨c.value, if kept then some (cell, []) else none⟩ name vs pos
    | _, .this p :: rest => do
      let cell ← objectOf fr p
      let vs ← exprs g fuel fr rest
      match g.program.function? name args.length with
      | some _ => callNamed g fuel fr name ((← readCell cell) :: vs) pos
      | none => nativeOn g fuel fr (← spotOf cell) name vs pos
    | _, args => do
      match ← exprs g fuel fr args with
      | [] => callNamed g fuel fr name [] pos
      | v :: vs =>
        match g.program.function? name args.length with
        | some _ => callNamed g fuel fr name (v :: vs) pos
        | none => nativeOn g fuel fr ⟨v, none⟩ name vs pos

def stmt (g : Setting) : Nat → Frame → Stmt → Eval Value
  | 0, _, _ => throw .starved
  | fuel + 1, fr, s => do
    tick g
    match s with
    | .nothing => return .unit
    | .expr e => expr g fuel fr e
    | .declare _ _ _ none => return .unit
    | .declare _ _ _ (some e) => do
      let _ ← expr g fuel fr e
      return .unit
    | .assign op target value pos => do
      if let .this p := target then discard (objectOf fr p)
      let new ← expr g fuel fr value
      assignTo g fuel fr op target new pos
      return .unit
    | .block body => stmts g fuel fr body
    | .branch cond yes no => do
      if ← truth (← expr g fuel fr cond) cond.pos then stmt g fuel fr yes
      else
        match no with
        | some s => stmt g fuel fr s
        | none => return .unit
    | .switch subject listed otherwise => do
      let v ← expr g fuel fr subject
      switch g fuel fr (Operators.casesFor v listed) otherwise
    | .loop cond body => turns g fuel fr cond body
    | .again body cond goOn => again g fuel fr body cond goOn
    | .each item counter source body => do
      match Supply.ofValue? (← expr g fuel fr source) with
      | none => fail (.misused .noLoop) source.start
      | some supply =>
        let cell ← allocate { value := .unit }
        let count ← allocate { value := .unit }
        let counted :=
          match counter with
          | some n => [(item, cell), (n, count)]
          | none => [(item, cell)]
        each g fuel { fr with environment := counted ++ fr.environment } cell count 0 supply body
    | .leave none => throw (.leave .unit)
    | .leave (some e) => do throw (.leave (← expr g fuel fr e))
    | .skip => throw .skip
    | .giveBack none => throw (.giveBack .unit)
    | .giveBack (some e) => do throw (.giveBack (← expr g fuel fr e))
    | .raise none pos => fail (.raised .unit) pos
    | .raise (some e) pos => do fail (.raised (← expr g fuel fr e)) pos
    | .attempt body name handler => do
      match ← attempt (stmt g fuel fr body) with
      | .ok v => return v
      | .error (.fault f) =>
        if f.cause.isFinal then throw (.fault f)
        let inner ←
          match name with
          | none => pure fr
          | some n => do
            let cell ← allocate { value := f.caught g.unit }
            pure { fr with environment := (n, cell) :: fr.environment }
        match ← attempt (stmt g fuel inner handler) with
        | .ok _ => return .unit
        | .error (.fault ⟨.raised .unit, [], pos⟩) => throw (.fault { f with pos })
        | .error e => throw e
      | .error e => throw e

/-- Assigns a value to a variable, to the object of a call, or to a part of one of them. -/
def assignTo (g : Setting) : Nat → Frame → Option Binary → Expr → Value → Pos → Eval Unit
  | 0, _, _, _, _, _ => throw .starved
  | fuel + 1, fr, op, target, new, pos => do
    match target with
    | .var name away p => assign op (← spotOf (← cellOf fr name away p)) new name p pos
    | .this p => assign op (← spotOf (← objectOf fr p)) new "" p pos
    | .chain base ss _ => do
      let taken ← stepsOf g fuel fr ss
      let (cell, root) ←
        match base with
        | .var name away p => pure (← cellOf fr name away p, name)
        | e => pure (← objectOf fr e.pos, "")
      match ← ofParts (reach (← spotOf cell) taken) with
      | some (spot, key) => assignPart op spot key new root base.pos pos
      | none => return ()
    | _ => return ()

/-- The statements of a block.  What one of them declares is seen by those after it. -/
def stmts (g : Setting) : Nat → Frame → List Stmt → Eval Value
  | 0, _, _ => throw .starved
  | _ + 1, _, [] => return .unit
  | fuel + 1, fr, .declare name constant place value :: rest => do
    tick g
    let v ←
      match value with
      | some e => expr g fuel fr e
      | none => pure .unit
    let cell ← allocate { value := v, constant := if constant then some v else none }
    stmts g fuel { fr with environment := withVariable fr.environment name cell place } rest
  | fuel + 1, fr, [s] => stmt g fuel fr s
  | fuel + 1, fr, s :: rest => do
    let _ ← stmt g fuel fr s
    stmts g fuel fr rest

/-- Runs the first case whose condition holds. -/
def switch (g : Setting) : Nat → Frame → List Case → Option Stmt → Eval Value
  | 0, _, _, _ => throw .starved
  | _ + 1, _, [], none => return .unit
  | fuel + 1, fr, [], some otherwise => stmt g fuel fr otherwise
  | fuel + 1, fr, (_, none, body) :: _, _ => stmt g fuel fr body
  | fuel + 1, fr, (_, some cond, body) :: rest, otherwise => do
    if ← truth (← expr g fuel fr cond) cond.pos then stmt g fuel fr body
    else switch g fuel fr rest otherwise

/-- The turns of a loop with its condition in front. -/
def turns (g : Setting) : Nat → Frame → Option Expr → Stmt → Eval Value
  | 0, _, _, _ => throw .starved
  | fuel + 1, fr, cond, body => do
    let goOn ←
      match cond with
      | none => pure true
      | some c => do truth (← expr g fuel fr c) c.pos
    if goOn then
      match ← attempt (stmt g fuel fr body) with
      | .ok _ | .error .skip => turns g fuel fr cond body
      | .error (.leave v) => return v
      | .error e => throw e
    else return .unit

/-- The turns of a loop with its condition at the end. -/
def again (g : Setting) : Nat → Frame → Stmt → Expr → Bool → Eval Value
  | 0, _, _, _, _ => throw .starved
  | fuel + 1, fr, body, cond, goOn => do
    match ← attempt (stmt g fuel fr body) with
    | .ok _ | .error .skip =>
      if (← truth (← expr g fuel fr cond) cond.pos) = goOn then again g fuel fr body cond goOn
      else return .unit
    | .error (.leave v) => return v
    | .error e => throw e

/-- The turns of a loop over items. -/
def each (g : Setting) : Nat → Frame → Nat → Nat → Nat → Supply → Stmt → Eval Value
  | 0, _, _, _, _, _, _ => throw .starved
  | fuel + 1, fr, cell, count, n, supply, body => do
    match supply.next? with
    | none => return .unit
    | some (v, rest) =>
      tick g
      writeCell cell v
      writeCell count (.int n)
      match ← attempt (stmt g fuel fr body) with
      | .ok _ | .error .skip => each g fuel fr cell count (n + 1) rest body
      | .error (.leave v) => return v
      | .error e => throw e

end

/-- The statements outside of functions.  What they declare stays, also if they are cut short. -/
def main (g : Setting) (fuel : Nat) : List Stmt → Eval Unit
  | [] => return ()
  | s :: rest => do
    let fr : Frame := { environment := (← get).outermost }
    match s with
    | .declare name constant place value =>
      tick g
      let v ←
        match value with
        | some e => expr g fuel fr e
        | none => pure .unit
      let cell ← allocate { value := v, constant := if constant then some v else none }
      modify fun s => { s with outermost := withVariable s.outermost name cell place }
    | s => discard (stmt g fuel fr s)
    main g fuel rest

end Eval

end Dialogue.Script
