import Dialogue.Text.Unprintable

/-!
# Quoted text

Text between quotes in which every character that would not be seen, or would end the
quotes, is written as an escape.
-/

namespace Dialogue.Text

/-- How a character is written between quotes of this kind. -/
def quotedChar (quote c : Char) : List Char :=
  match c with
  | '\\' => ['\\', '\\']
  | '\n' => ['\\', 'n']
  | '\r' => ['\\', 'r']
  | '\t' => ['\\', 't']
  | '\x00' => ['\\', '0']
  | c =>
    if c = quote then ['\\', c]
    else if c.toNat < 0x20 || 0x7F ≤ c.toNat && isUnprintable c then
      ['\\', 'u', '\x7b'] ++ Nat.toDigits 16 c.toNat ++ ['\x7d']
    else [c]

/-- Characters between quotes, with escapes. -/
def quotedBy (quote : Char) (s : List Char) : String :=
  String.ofList (quote :: s.flatMap (quotedChar quote) ++ [quote])

/-- `s` between double quotes. -/
def quoted (s : String) : String := quotedBy '"' s.toList

end Dialogue.Text
