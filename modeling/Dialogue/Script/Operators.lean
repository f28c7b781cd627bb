import Dialogue.Script.Value

/-!
# Operators on values

Integers have 64 bits, and an operation whose result has more fails.  An integer meets a float
as a float.  Values of different types are never equal and in no order, except that integers
compare with floats and characters with strings.  Functions cannot be compared at all.
-/

namespace Dialogue.Script

/-- Why arithmetic gives no integer. -/
inductive ArithmeticFault where
  /-- the result has more than 64 bits -/
  | overflow (op : Binary) (x y : Int)
  | divisionByZero (x y : Int)
  /-- the divisor is zero, or the quotient has more than 64 bits -/
  | noRemainder (x y : Int)
  | negativePower (x y : Int)
  | negation (x : Int)
  deriving DecidableEq, Repr

namespace ArithmeticFault

/-- The name of an operation. -/
def operation : Binary → String
  | .add => "Addition"
  | .sub => "Subtraction"
  | .mul => "Multiplication"
  | .div => "Division"
  | .pow => "Exponential"
  | op => op.sign

def message : ArithmeticFault → String
  | overflow op x y => s!"{operation op} overflow: {x} {op.sign} {y}"
  | divisionByZero x y => s!"Division by zero: {x} / {y}"
  | noRemainder x y => s!"Modulo division by zero or overflow: {x} % {y}"
  | negativePower x y => s!"Integer raised to a negative power: {x} {Binary.pow.sign} {y}"
  | negation x => s!"Negation overflow: -{x}"

end ArithmeticFault

/-- Why an operator gives no value. -/
inductive OperatorFault where
  /-- the operator does not take operands of these types -/
  | undefined
  /-- the operands are compared by what is in them, and there are functions -/
  | functionsCompared
  | arithmetic (fault : ArithmeticFault)
  deriving DecidableEq, Repr

namespace Operators

open Value

def minInt : Int := -(pow2 63)

def maxInt : Int := pow2 63 - 1

/-- A result of 64 bits, or a fault that shows the operation. -/
def bounded (op : Binary) (x y result : Int) : Except OperatorFault Value :=
  if minInt ≤ result ∧ result ≤ maxInt then .ok (int result)
  else .error (.arithmetic (.overflow op x y))

/-- `x` raised to a power.  A result of more than 64 bits need not be exact. -/
def power (x : Int) (n : Nat) : Int :=
  if x.natAbs ≤ 1 ∧ 2 ≤ n then Int.pow x (2 + n % 2) else Int.pow x (min n 65)

/-- The bits of `x` moved up; what leaves the 64 bits is lost. -/
def shiftUp (x : Int) (n : Nat) : Int := (BitVec.ofInt 64 x <<< min n 64).toInt

/-- The bits of `x` moved down; copies of the sign follow. -/
def shiftDown (x : Int) (n : Nat) : Int := ((BitVec.ofInt 64 x).sshiftRight (min n 64)).toInt

def intArithmetic (op : Binary) (x y : Int) : Except OperatorFault Value :=
  match op with
  | .add => bounded op x y (x + y)
  | .sub => bounded op x y (x - y)
  | .mul => bounded op x y (x * y)
  | .div =>
    if y = 0 then .error (.arithmetic (.divisionByZero x y)) else bounded op x y (x.tdiv y)
  | .mod =>
    if y = 0 ∨ x = minInt ∧ y = -1 then .error (.arithmetic (.noRemainder x y))
    else .ok (int (x.tmod y))
  | .pow =>
    if y < 0 then .error (.arithmetic (.negativePower x y))
    else if pow2 32 ≤ y then .error (.arithmetic (.overflow op x y))
    else bounded op x y (power x y.toNat)
  | .bitAnd => .ok (int (BitVec.ofInt 64 x &&& BitVec.ofInt 64 y).toInt)
  | .bitOr => .ok (int (BitVec.ofInt 64 x ||| BitVec.ofInt 64 y).toInt)
  | .bitXor => .ok (int (BitVec.ofInt 64 x ^^^ BitVec.ofInt 64 y).toInt)
  | .shiftLeft => .ok (int (if 0 ≤ y then shiftUp x y.toNat else shiftDown x y.natAbs))
  | .shiftRight => .ok (int (if 0 ≤ y then shiftDown x y.toNat else shiftUp x y.natAbs))
  | .eq | .ne | .lt | .le | .gt | .ge => .error .undefined

def floatArithmetic (op : Binary) (x y : Binary64) : Except OperatorFault Value :=
  match op with
  | .add => .ok (float (x + y))
  | .sub => .ok (float (x - y))
  | .mul => .ok (float (x * y))
  | .div => .ok (float (x / y))
  | .mod => .ok (float (x.remainder y))
  | .pow => .ok (float (x.pow y))
  | _ => .error .undefined

/-- `+` joins texts with anything, arrays with arrays and maps with maps. -/
def join (x y : Value) : Except OperatorFault Value :=
  match x, y with
  | string s, v => .ok (string (s ++ v.text))
  | v, string s => .ok (string (v.text ++ s))
  | char c, char d => .ok (string (String.ofList [c, d]))
  | array xs, array ys => .ok (array (xs ++ ys))
  | map xs, map ys => .ok (map (ys.foldl (fun m (n, v) => insertField n v m) xs))
  | _, _ => .error .undefined

/-- A text without the places where `part` stands in it; `dropped` characters of such a place are
still to come. -/
def without (part : List Char) : Nat → List Char → List Char
  | _, [] => []
  | dropped + 1, _ :: rest => without part dropped rest
  | 0, c :: rest =>
    if !part.isEmpty && part.isPrefixOf (c :: rest) then without part (part.length - 1) rest
    else c :: without part 0 rest

/-- `-` takes all places of a text or character out of a text. -/
def takeOut (x y : Value) : Except OperatorFault Value :=
  match x, y with
  | string s, string part => .ok (string (String.ofList (without part.toList 0 s.toList)))
  | string s, char c => .ok (string (String.ofList (without [c] 0 s.toList)))
  | _, _ => .error .undefined

/-- Arithmetic, and `+` and `-` for texts. -/
def arithmetic (op : Binary) (x y : Value) : Except OperatorFault Value :=
  match x, y with
  | int a, int b => intArithmetic op a b
  | float a, float b => floatArithmetic op a b
  | int a, float b => floatArithmetic op (Binary64.ofInt a) b
  | float a, int b => floatArithmetic op a (Binary64.ofInt b)
  | .bool a, .bool b =>
    match op with
    | .bitAnd => .ok (.bool (a && b))
    | .bitOr => .ok (.bool (a || b))
    | .bitXor => .ok (.bool (a != b))
    | _ => .error .undefined
  | _, _ =>
    match op with
    | .add => join x y
    | .sub => takeOut x y
    | _ => .error .undefined

/-! ### Comparison -/

mutual

/-- Whether two values are equal; none if functions have to be compared to know it. -/
def equal? : Value → Value → Option Bool
  | unit, unit => some true
  | .bool a, .bool b => some (a == b)
  | int a, int b => some (a == b)
  | float a, float b => some (a.same b)
  | int a, float b => some ((Binary64.ofInt a).same b)
  | float a, int b => some (a.same (Binary64.ofInt b))
  | char a, char b => some (a == b)
  | string a, string b => some (a == b)
  | char a, string b => some (a.toString == b)
  | string a, char b => some (a == b.toString)
  | array xs, array ys => if xs.length = ys.length then equalItems? xs ys else some false
  | map xs, map ys => if xs.length = ys.length then equalFields? xs ys else some false
  | range a b c, range d e f => some (a == d && b == e && c == f)
  | v, w => if v.isCallable && w.isCallable then none else some false

def equalItems? : List Value → List Value → Option Bool
  | x :: xs, y :: ys =>
    match equal? x y with
    | some true => equalItems? xs ys
    | answer => answer
  | _, _ => some true

def equalFields? : List (String × Value) → List (String × Value) → Option Bool
  | (n, x) :: xs, (m, y) :: ys =>
    if n = m then
      match equal? x y with
      | some true => equalFields? xs ys
      | answer => answer
    else some false
  | _, _ => some true

end

/-- Whether two values are known to be equal. -/
def same (x y : Value) : Bool := equal? x y == some true

/-- Whether two values are equal, as `wanted` or not. -/
def equality (x y : Value) (wanted : Bool) : Except OperatorFault Value :=
  match equal? x y with
  | some b => .ok (.bool (b == wanted))
  | none => .error (if x.isCallable then .undefined else .functionsCompared)

/-- Whether `x` comes before `y`; none if the order is not defined between values of the type. -/
def before? (x y : Value) : Option Bool :=
  match x, y with
  | int a, int b => some (a < b)
  | float a, float b => some (a.less b)
  | int a, float b => some ((Binary64.ofInt a).less b)
  | float a, int b => some (a.less (Binary64.ofInt b))
  | char a, char b => some (a < b)
  | string a, string b => some (a < b)
  | char a, string b => some (a.toString < b)
  | string a, char b => some (a < b.toString)
  | .bool a, .bool b => some (!a && b)
  | _, _ => if x.typeName = y.typeName then none else some false

/-- Whether an order is given by `before?` or, if equality is allowed, by equality.  Unit stands
in no order, not even to itself. -/
def ordered (first second : Value) (orEqual : Bool) : Except OperatorFault Value :=
  match first, second with
  | unit, unit => .ok (.bool false)
  | _, _ =>
    match before? first second with
    | some b => .ok (.bool (b || orEqual && same first second))
    | none => .error .undefined

/-- The value of an operator on values that are written down. -/
def written (op : Binary) (x y : Value) : Except OperatorFault Value :=
  match op with
  | .eq => equality x y true
  | .ne => equality x y false
  | .lt => ordered x y false
  | .le => ordered x y true
  | .gt => ordered y x false
  | .ge => ordered y x true
  | _ => arithmetic op x y

/-- The value of an operator.  Truth values that are computed stand in no order. -/
def binary (op : Binary) (x y : Value) : Except OperatorFault Value :=
  match op, x, y with
  | .lt, .bool _, .bool _ | .le, .bool _, .bool _ | .gt, .bool _, .bool _
  | .ge, .bool _, .bool _ => .ok (.bool false)
  | _, _, _ => written op x y

def unary (op : Unary) (x : Value) : Except OperatorFault Value :=
  match op, x with
  | .minus, int n =>
    if n = minInt then .error (.arithmetic (.negation n)) else .ok (int (-n))
  | .minus, float x => .ok (float x.neg)
  | .plus, int n => .ok (int n)
  | .plus, float x => .ok (float x)
  | .not, .bool b => .ok (.bool (!b))
  | _, _ => .error .undefined

/-- Some characters stand somewhere in others. -/
def isPart (part : List Char) : List Char → Bool
  | [] => part.isEmpty
  | c :: rest => part.isPrefixOf (c :: rest) || isPart part rest

/-- Whether an item of an array is equal to a value; none if functions have to be compared to
know it. -/
def hasItem? (v : Value) : List Value → Option Bool
  | [] => some false
  | x :: rest =>
    match equal? x v with
    | some false => hasItem? v rest
    | answer => answer

/-- Whether an array has an item, a map a field, a text a part, or a range a number. -/
def contains (container item : Value) : Except OperatorFault Bool :=
  match container, item with
  | array xs, v => (hasItem? v xs).elim (.error .functionsCompared) .ok
  | map fields, string n => .ok (fields.any (·.1 == n))
  | string s, string part => .ok (isPart part.toList s.toList)
  | string s, char c => .ok (s.toList.contains c)
  | range a b inclusive, int n => .ok (a ≤ n && (n < b || inclusive && n == b))
  | _, _ => .error .undefined

/-! ### Cases -/

mutual

/-- Whether a value is the very one that is written down: numbers of different types differ, and
floats are told apart by their bits. -/
def isLiteral : Literal → Value → Bool
  | .unit, unit => true
  | .bool a, .bool b => a == b
  | .int a, int b => a == b
  | .float a, float b => a == b
  | .char a, char b => a == b
  | .string a, string b => a == b
  | .array as, array bs => areLiterals as bs
  | .map as, map bs => areLiteralFields as bs
  | .function a, function b => a == b
  | _, _ => false

def areLiterals : List Literal → List Value → Bool
  | [], [] => true
  | a :: as, b :: bs => isLiteral a b && areLiterals as bs
  | _, _ => false

def areLiteralFields : List (String × Literal) → List (String × Value) → Bool
  | [], [] => true
  | (n, a) :: as, (m, b) :: bs => n == m && isLiteral a b && areLiteralFields as bs
  | _, _ => false

end

/-- Whether a number lies in a range that is written down. -/
def isInRange (pattern : Literal) (v : Value) : Bool :=
  match pattern, v with
  | .range a b inclusive, int n => a ≤ n && (n < b || inclusive && n == b)
  | .range a b inclusive, float x =>
    let a := Binary64.ofInt a
    let b := Binary64.ofInt b
    (a.less x || a.same x) && (x.less b || inclusive && x.same b)
  | _, _ => false

/-- The cases that choose a value: those that name it or, if none does, those with a range that
it lies in. -/
def casesFor (v : Value) (listed : List Case) : List Case :=
  let named := listed.filter fun c => c.1.any (isLiteral · v)
  if named.isEmpty then listed.filter fun c => c.1.any (isInRange · v) else named

end Operators

end Dialogue.Script
