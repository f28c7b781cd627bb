import Dialogue.Json.Value

/-!
# JSON text

Two forms of the text of a value: the compact form, without blanks, and the pretty form, with a
line per item and two spaces per level.  A character is escaped only where JSON demands it.
-/

namespace Dialogue.Json

/-- The text of numbers: the fewest digits that read back, always with a point or an exponent;
numbers from `10^-5` to below `10^16` have no exponent. -/
def numberLayout : Binary64.Layout :=
  { plainFrom := ⟨1, -5⟩, plainTo := ⟨pow10 16 - 1, 0⟩, signedExponent := true,
    signedZero := true }

/-- A hexadecimal digit in lower case. -/
def hexDigit (n : Nat) : Char := Nat.digitChar n

/-- How a character is written inside a string. -/
def escapedChar (c : Char) : List Char :=
  match c with
  | '"' => ['\\', '"']
  | '\\' => ['\\', '\\']
  | '\x08' => ['\\', 'b']
  | '\x0c' => ['\\', 'f']
  | '\n' => ['\\', 'n']
  | '\r' => ['\\', 'r']
  | '\t' => ['\\', 't']
  | c =>
    if c.toNat < 0x20 then ['\\', 'u', '0', '0', hexDigit (c.toNat / 16), hexDigit (c.toNat % 16)]
    else [c]

/-- A string with its quotes. -/
def stringText (s : String) : List Char := '"' :: s.toList.flatMap escapedChar ++ ['"']

/-- A number that JSON has no text for is `null`. -/
def floatText (x : Binary64) : List Char :=
  if x.isFinite then x.text numberLayout else ['n', 'u', 'l', 'l']

def intText (n : Int) : List Char :=
  if n < 0 then '-' :: Binary64.digitsOf n.natAbs else Binary64.digitsOf n.natAbs

/-- A value that has no parts. -/
def atomText : Json → List Char
  | .null => ['n', 'u', 'l', 'l']
  | .bool true => ['t', 'r', 'u', 'e']
  | .bool false => ['f', 'a', 'l', 's', 'e']
  | .int n => intText n
  | .float x => floatText x
  | .string s => stringText s
  | .array _ => ['[', ']']
  | .object _ => ['\x7b', '\x7d']

/-! ### Layout -/

/-- What stands between the parts of a value. -/
structure Spacing where
  /-- in front of an item or a field at a level, and of the bracket that closes them -/
  line : Nat → List Char
  /-- behind the colon of a field -/
  value : List Char

/-- No blanks at all. -/
def Spacing.tight : Spacing where
  line _ := []
  value := []

/-- A line for each item and field, indented by two blanks per level. -/
def Spacing.lined : Spacing where
  line level := '\n' :: List.replicate (2 * level) ' '
  value := [' ']

mutual

/-- The text of a value that stands at `level`. -/
def chars (s : Spacing) (level : Nat) : Json → List Char
  | .array (item :: items) =>
    '[' :: s.line (level + 1) ++ chars s (level + 1) item ++ moreItems s (level + 1) items
      ++ s.line level ++ [']']
  | .object ((name, value) :: fields) =>
    '\x7b' :: s.line (level + 1) ++ stringText name ++ ':' :: s.value ++ chars s (level + 1) value
      ++ moreFields s (level + 1) fields ++ s.line level ++ ['\x7d']
  | atom => atomText atom

/-- The items after the first. -/
def moreItems (s : Spacing) (level : Nat) : List Json → List Char
  | [] => []
  | item :: items => ',' :: s.line level ++ chars s level item ++ moreItems s level items

/-- The fields after the first. -/
def moreFields (s : Spacing) (level : Nat) : List (String × Json) → List Char
  | [] => []
  | (name, value) :: fields =>
    ',' :: s.line level ++ stringText name ++ ':' :: s.value ++ chars s level value
      ++ moreFields s level fields

end

/-- The text without blanks. -/
def compact (v : Json) : String := String.ofList (v.chars .tight 0)

/-- The text with a line per item. -/
def pretty (v : Json) : String := String.ofList (v.chars .lined 0)

end Dialogue.Json
