import Dialogue.Number.Binary64

/-!
# Shortest decimals

The decimal written for a number is the shortest one that reads back to it.  The reals that
round to `m · 2^q` form an interval around it, closed exactly when `m` is even.  The coarsest
grid of multiples of a power of ten that has a point in the interval gives the fewest digits,
and if a grid has such a point, one of the two grid points next to the number is one.
-/

namespace Dialogue.Binary64

/-- A positive decimal `digits · 10^exponent`. -/
structure Decimal where
  digits : Nat
  exponent : Int
  deriving DecidableEq, Repr

/-- The interval of reals that round to a number, and the number itself, as fractions with the
common denominator `unit`. -/
structure Reach where
  low : Nat
  value : Nat
  high : Nat
  unit : Nat
  closed : Bool

/-- The interval around `m · 2^q`.  Below a power of two the neighbour is half as far away. -/
def reach (m : Nat) (q : Int) : Reach :=
  let below := if m = pow2 52 ∧ -1074 < q then 1 else 2
  let up := pow2 q.toNat
  { low := (4 * m - below) * up
    value := 4 * m * up
    high := (4 * m + 2) * up
    unit := 4 * pow2 (-q).toNat
    closed := m % 2 = 0 }

/-- `r` measured in units of `10^p`. -/
def Reach.inUnitsOf (r : Reach) (p : Int) : Reach :=
  let up := pow10 (-p).toNat
  { r with
    low := r.low * up, value := r.value * up, high := r.high * up, unit := r.unit * pow10 p.toNat }

/-- The integer `n` lies in the interval. -/
def Reach.holds (r : Reach) (n : Nat) : Bool :=
  if r.closed then r.low ≤ n * r.unit && n * r.unit ≤ r.high
  else r.low < n * r.unit && n * r.unit < r.high

/-- The integer of the interval that is nearest to the number, a tie to the even one. -/
def Reach.nearest? (r : Reach) : Option Nat :=
  let floor := r.value / r.unit
  match r.holds floor, r.holds (floor + 1) with
  | false, false => none
  | true, false => some floor
  | false, true => some (floor + 1)
  | true, true => some (roundQuotient r.value r.unit)

/-- Tries the grids `10^p`, `10^(p-1)`, … in turn. -/
def shortestFrom (r : Reach) (p : Int) : Nat → Decimal
  | 0 => ⟨0, p⟩
  | fuel + 1 =>
    match (r.inUnitsOf p).nearest? with
    | some n => ⟨n, p⟩
    | none => shortestFrom r (p - 1) fuel

/-- The shortest decimal that rounds to `m · 2^q`, of several the nearest. -/
def shortest (m : Nat) (q : Int) : Decimal :=
  shortestFrom (reach m q) ((m.log2 + q) * 1233 / 4096 + 2) 24

/-- The digits of a natural number, most significant first. -/
def digitsOf (n : Nat) : List Char := Nat.toDigits 10 n

namespace Decimal

/-- The digits, measured in units of `10^p` where `p` is at most the exponent. -/
def inUnitsOf (d : Decimal) (p : Int) : Nat := d.digits * pow10 (d.exponent - p).toNat

/-- `a` is at most `b`: both are compared in the finer of their units. -/
def atMost (a b : Decimal) : Bool :=
  let p := min a.exponent b.exponent
  a.inUnitsOf p ≤ b.inUnitsOf p

end Decimal

/-- How numbers are laid out as text. -/
structure Layout where
  /-- the least number that is written without an exponent part -/
  plainFrom : Decimal
  /-- the greatest such number -/
  plainTo : Decimal
  /-- a sign is written before a positive exponent -/
  signedExponent : Bool
  /-- negative zero keeps its sign -/
  signedZero : Bool

/-- Digits `ds` with the point after the `point`-th digit; a whole number ends in `.0`. -/
def plain (ds : List Char) (point : Int) : List Char :=
  if point ≤ 0 then '0' :: '.' :: List.replicate (-point).toNat '0' ++ ds
  else if ds.length ≤ point.toNat then
    ds ++ List.replicate (point.toNat - ds.length) '0' ++ ['.', '0']
  else ds.take point.toNat ++ '.' :: ds.drop point.toNat

/-- Digits `ds` with the point after the first and a power of ten. -/
def scientific (layout : Layout) (ds : List Char) (exponent : Int) : List Char :=
  let mark :=
    if exponent < 0 then ['-'] else if layout.signedExponent then ['+'] else []
  let fraction := if ds.tail.isEmpty then [] else '.' :: ds.tail
  ds.take 1 ++ fraction ++ 'e' :: mark ++ digitsOf exponent.natAbs

/-- The text of a decimal. -/
def Decimal.layout (layout : Layout) (d : Decimal) : List Char :=
  let ds := digitsOf d.digits
  if layout.plainFrom.atMost d && d.atMost layout.plainTo then plain ds (d.exponent + ds.length)
  else scientific layout ds (d.exponent + ds.length - 1)

/-- The text of a finite number. -/
def text (layout : Layout) (x : Binary64) : List Char :=
  if x.isZero then
    if layout.signedZero ∧ x.isNegative then ['-', '0', '.', '0'] else ['0', '.', '0']
  else
    let digits := (shortest x.mantissa x.exponent).layout layout
    if x.isNegative then '-' :: digits else digits

end Dialogue.Binary64
