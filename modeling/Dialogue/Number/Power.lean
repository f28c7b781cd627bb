/-!
# Powers

Powers of two and of ten, the units in which binary and decimal numbers are measured.
-/

namespace Dialogue

/-- Two to the power `n`. -/
abbrev pow2 (n : Nat) : Nat := Nat.pow 2 n

/-- Ten to the power `n`. -/
abbrev pow10 (n : Nat) : Nat := Nat.pow 10 n

end Dialogue
