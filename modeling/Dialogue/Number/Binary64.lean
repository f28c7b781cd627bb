import Dialogue.Number.Power

/-!
# Double-precision numbers

A flag value or an amount is a double-precision number, held by its 64 bits.  A finite number
is a sign, a mantissa `m` and an exponent `q`, and stands for `± m · 2^q`; this module reads
those parts off the bits and rounds a fraction to the nearest number, a tie to the even one.

Everything but the four arithmetic operations of scripts is exact arithmetic on `Nat`, so it
can be computed inside a proof.
-/

namespace Dialogue

/-- A double-precision number, given by its bits. -/
structure Binary64 where
  bits : UInt64
  deriving DecidableEq, Inhabited, Repr

namespace Binary64

/-! ### Parts of a number -/

/-- The sign bit. -/
def isNegative (x : Binary64) : Bool := pow2 63 ≤ x.bits.toNat

/-- The eleven bits of the exponent field. -/
def exponentField (x : Binary64) : Nat := x.bits.toNat / pow2 52 % pow2 11

/-- The fifty-two bits of the fraction field. -/
def fractionField (x : Binary64) : Nat := x.bits.toNat % pow2 52

/-- Neither an infinity nor a NaN. -/
def isFinite (x : Binary64) : Bool := x.exponentField != 2047

def isNaN (x : Binary64) : Bool := x.exponentField == 2047 && x.fractionField != 0

/-- `m` in `± m · 2^q`. -/
def mantissa (x : Binary64) : Nat :=
  if x.exponentField = 0 then x.fractionField else pow2 52 + x.fractionField

/-- `q` in `± m · 2^q`. -/
def exponent (x : Binary64) : Int := max x.exponentField 1 - 1075

/-- Positive or negative zero. -/
def isZero (x : Binary64) : Bool := x.exponentField == 0 && x.fractionField == 0

/-! ### Rounding -/

/-- The number with the given sign whose other 63 bits are `magnitude`; a magnitude past the
largest finite number is infinity. -/
def ofMagnitude (negative : Bool) (magnitude : Nat) : Binary64 :=
  let capped := min magnitude (2047 * pow2 52)
  ⟨.ofNat (if negative then pow2 63 + capped else capped)⟩

def infinity (negative : Bool) : Binary64 := ofMagnitude negative (2047 * pow2 52)

def zero (negative : Bool) : Binary64 := ofMagnitude negative 0

/-- `num / den` to the nearest integer, a half to the even neighbour. -/
def roundQuotient (num den : Nat) : Nat :=
  let whole := num / den
  let rest := 2 * (num % den)
  if rest < den then whole
  else if den < rest then whole + 1
  else whole + whole % 2

/-- `num / den` in units of `2^q`, as a fraction. -/
def scaled (num den : Nat) (q : Int) : Nat × Nat :=
  if 0 ≤ q then (num, den * pow2 q.toNat) else (num * pow2 (-q).toNat, den)

/-- An exponent `q` for which `num / den` lies in `2^52 · 2^q … 2^53 · 2^q`, or the least
exponent there is. -/
def scaleOf (num den : Nat) : Int :=
  let guess : Int := num.log2 - den.log2 - 52
  let (n, d) := scaled num den guess
  max (if n < pow2 52 * d then guess - 1 else guess) (-1074)

/-- The number nearest to `± num / den`. -/
def ofRatio (negative : Bool) (num den : Nat) : Binary64 :=
  if num = 0 then zero negative
  else
    let q := scaleOf num den
    let (n, d) := scaled num den q
    ofMagnitude negative ((q + 1074).toNat * pow2 52 + roundQuotient n d)

/-- The number nearest to an integer. -/
def ofInt (n : Int) : Binary64 := ofRatio (n < 0) n.natAbs 1

/-- The number nearest to `± digits · 10^exponent`.  Past the 400th power of ten the answer is
infinity or zero, whatever the digits. -/
def ofDecimal (negative : Bool) (digits : Nat) (exponent : Int) : Binary64 :=
  if digits = 0 then zero negative
  else if 400 < exponent then infinity negative
  else if exponent + digits.log2 < -400 then zero negative
  else if 0 ≤ exponent then ofRatio negative (digits * pow10 exponent.toNat) 1
  else ofRatio negative digits (pow10 (-exponent).toNat)

/-! ### Scaling -/

/-- The product of two finite numbers, rounded once. -/
def times (x y : Binary64) : Binary64 :=
  let q := x.exponent + y.exponent
  let m := x.mantissa * y.mantissa
  let negative := x.isNegative != y.isNegative
  if 0 ≤ q then ofRatio negative (m * pow2 q.toNat) 1 else ofRatio negative m (pow2 (-q).toNat)

/-- The quotient of two finite numbers, rounded once; the second is not zero. -/
def dividedBy (x y : Binary64) : Binary64 :=
  let (num, den) := scaled x.mantissa y.mantissa (y.exponent - x.exponent)
  ofRatio (x.isNegative != y.isNegative) num den

/-- The largest power of ten that is a number. -/
def largestPower : Nat := 308

/-- The number nearest to a power of ten that is not too large. -/
def powerOfTen (n : Nat) : Binary64 := ofDecimal false 1 n

/-- `x · 10^power` with a rounding for each power of ten up to the largest.  Once that power has
been taken out of a number a few times, nothing is left of it. -/
def scaledBy : Nat → Binary64 → Int → Binary64
  | 0, x, _ => x
  | fuel + 1, x, power =>
    if power.natAbs ≤ largestPower then
      if 0 ≤ power then x.times (powerOfTen power.toNat)
      else x.dividedBy (powerOfTen (-power).toNat)
    else if x.isZero then x
    else if 0 ≤ power then infinity x.isNegative
    else scaledBy fuel (x.dividedBy (powerOfTen largestPower)) (power + largestPower)

/-- `x · 10^power`, computed in double precision. -/
def timesPower (x : Binary64) (power : Int) : Binary64 := scaledBy 4 x power

/-! ### Arithmetic -/

def toFloat (x : Binary64) : Float := .ofBits x.bits

def ofFloat (x : Float) : Binary64 := ⟨x.toBits⟩

instance : Add Binary64 := ⟨fun x y => ofFloat (x.toFloat + y.toFloat)⟩
instance : Sub Binary64 := ⟨fun x y => ofFloat (x.toFloat - y.toFloat)⟩
instance : Mul Binary64 := ⟨fun x y => ofFloat (x.toFloat * y.toFloat)⟩
instance : Div Binary64 := ⟨fun x y => ofFloat (x.toFloat / y.toFloat)⟩

/-- The same number with the other sign. -/
def neg (x : Binary64) : Binary64 := ⟨x.bits ^^^ 0x8000000000000000⟩

instance : Neg Binary64 := ⟨neg⟩

/-- `x ^ y`, as the arithmetic unit computes it. -/
def pow (x y : Binary64) : Binary64 := ofFloat (x.toFloat.pow y.toFloat)

/-- Where a finite number or an infinity lies among all numbers, both zeros at `0`. -/
def rank (x : Binary64) : Int :=
  let magnitude : Int := x.bits.toNat % pow2 63
  if x.isNegative then -magnitude else magnitude

/-- Equality of numbers: the zeros are equal, a NaN equals nothing. -/
def same (x y : Binary64) : Bool := !x.isNaN && !y.isNaN && x.rank == y.rank

/-- Order of numbers; a NaN is in no order with anything. -/
def less (x y : Binary64) : Bool := !x.isNaN && !y.isNaN && x.rank < y.rank

/-- The integer part, dropped toward zero, of a finite number. -/
def truncate (x : Binary64) : Int :=
  let size : Int :=
    if 0 ≤ x.exponent then x.mantissa * pow2 x.exponent.toNat
    else (x.mantissa / pow2 (-x.exponent).toNat : Nat)
  if x.isNegative then -size else size

/-- The remainder of `x / y` with the sign of `x`: `x` less the whole multiples of `y`. -/
def remainder (x y : Binary64) : Binary64 :=
  if !x.isFinite || y.isNaN || y.isZero then ⟨0x7ff8000000000000⟩
  else if !y.isFinite then x
  else
    let q := min x.exponent y.exponent
    let a := x.mantissa * pow2 (x.exponent - q).toNat
    let b := y.mantissa * pow2 (y.exponent - q).toNat
    let r := a % b
    if 0 ≤ q then ofRatio x.isNegative (r * pow2 q.toNat) 1
    else ofRatio x.isNegative r (pow2 (-q).toNat)

end Binary64

end Dialogue
