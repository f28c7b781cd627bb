import Dialogue.Script.Token
import Dialogue.Script.Word
import Dialogue.Text.Blank

/-!
# From characters to tokens

A source text is cut into tokens from left to right, each as long as it can be.  Blanks and
comments separate tokens and are dropped; an open comment reaches to the end.

A template is text between back-ticks with blocks in braces inside.  While a block is open, the
number of braces opened in it is kept, so that its closing brace is known and the text goes on.
-/

namespace Dialogue.Script

/-- What is left of a source text, and where it begins. -/
structure Input where
  rest : List Char
  pos : Pos := {}

namespace Input

/-- The input after its first character. -/
def tail (i : Input) : Input :=
  match i.rest with
  | [] => i
  | c :: rest => ⟨rest, i.pos.after c⟩

def drop (i : Input) : Nat → Input
  | 0 => i
  | n + 1 => i.tail.drop n

/-- The characters that satisfy `p`, up to the first that does not. -/
def span (p : Char → Bool) (pos : Pos) : List Char → List Char × Input
  | [] => ([], ⟨[], pos⟩)
  | c :: rest =>
    if p c then
      let (taken, i) := span p (pos.after c) rest
      (c :: taken, i)
    else ([], ⟨c :: rest, pos⟩)

end Input

namespace Lexer

open Word

/-! ### Blanks and comments -/

/-- The characters between tokens. -/
def isGap (c : Char) : Bool :=
  c == ' ' || c == '\t' || c == '\n' || c == '\x0c' || c == '\r'

/-- Drops the rest of a line, which ends with a line feed, a carriage return or both. -/
def pastLine (pos : Pos) : List Char → Input
  | [] => ⟨[], pos⟩
  | '\r' :: '\n' :: rest => ⟨rest, pos.nextLine⟩
  | c :: rest =>
    if c = '\n' || c = '\r' then ⟨rest, pos.nextLine⟩ else pastLine (pos.after c) rest

/-- Drops a comment of which `depth` are open. -/
def pastComment (depth : Nat) (pos : Pos) : List Char → Input
  | '*' :: '/' :: rest =>
    let pos := (pos.after '*').after '/'
    match depth with
    | 0 | 1 => ⟨rest, pos⟩
    | d + 2 => pastComment (d + 1) pos rest
  | '/' :: '*' :: rest => pastComment (depth + 1) ((pos.after '/').after '*') rest
  | c :: rest => pastComment depth (pos.after c) rest
  | [] => ⟨[], pos⟩

/-- Drops blanks and comments; every turn drops a character. -/
def pastGap : Nat → Input → Input
  | 0, i => i
  | fuel + 1, i =>
    match i.rest with
    | '/' :: '/' :: _ => pastGap fuel (pastLine i.pos i.rest)
    | '/' :: '*' :: rest => pastGap fuel (pastComment 1 ((i.pos.after '/').after '*') rest)
    | c :: _ => if isGap c then pastGap fuel i.tail else i
    | [] => i

/-! ### Words -/

def wordKind (s : String) : TokenKind :=
  if s ∈ keywords then .keyword s
  else if s ∈ reservedWords then .reserved s
  else .name s

/-! ### Numbers -/

def digitValue? (c : Char) : Option Nat :=
  if c.isDigit then some (c.toNat - '0'.toNat)
  else if 'a' ≤ c ∧ c ≤ 'f' then some (c.toNat - 'a'.toNat + 10)
  else if 'A' ≤ c ∧ c ≤ 'F' then some (c.toNat - 'A'.toNat + 10)
  else none

/-- The number that digits in a base stand for, underscores passed over. -/
def numeral? (base : Nat) (ds : List Char) : Option Nat :=
  let ds := ds.filter (· != '_')
  if ds.isEmpty then none
  else ds.foldlM (fun n c => do
    let d ← digitValue? c
    if d < base then some (base * n + d) else none) 0

def decimalOf (ds : List Char) : Nat :=
  ds.foldl (fun n c => if c.isDigit then 10 * n + (c.toNat - '0'.toNat) else n) 0

def digitCount (ds : List Char) : Nat := ds.countP Char.isDigit

def isDigitOrGap (c : Char) : Bool := c.isDigit || c == '_'

/-- The largest integer. -/
def maxInt : Nat := pow2 63 - 1

/-- The fraction of a number: a point that is not the sign of a range or of a property. -/
def fraction (i : Input) : Option (List Char × Input) :=
  match i.rest with
  | '.' :: c :: _ =>
    if c.isDigit then some (Input.span isDigitOrGap i.tail.pos i.tail.rest)
    else if c = '_' || c = '.' || isNameStart c then none
    else some (['0'], i.tail)
  | _ => none

/-- The exponent of a number. -/
def exponent (i : Input) : Option (Int × Input) :=
  let digits (negative : Bool) (i : Input) : Option (Int × Input) :=
    let (ds, j) := Input.span isDigitOrGap i.pos i.rest
    let n : Int := decimalOf ds
    if digitCount ds = 0 then none else some (if negative then -n else n, j)
  match i.rest with
  | mark :: rest =>
    if mark = 'e' || mark = 'E' then
      match rest with
      | '+' :: _ => digits false (i.drop 2)
      | '-' :: _ => digits true (i.drop 2)
      | c :: _ => if c.isDigit then digits false i.tail else none
      | [] => none
    else none
  | [] => none

/-- A decimal number; one without point or exponent is an integer if 64 bits hold it. -/
def decimalNumber (negative : Bool) (i : Input) : TokenKind × Input :=
  let (whole, j) := Input.span isDigitOrGap i.pos i.rest
  let point := fraction j
  let (part, k) := point.getD ([], j)
  let power := exponent k
  let (e, l) := power.getD (0, k)
  let n := decimalOf (whole ++ part)
  let bound := if negative then maxInt + 1 else maxInt
  if point.isNone && power.isNone && n ≤ bound then (.int (if negative then -n else n), l)
  else (.float (Binary64.ofDecimal negative n (e - digitCount part)), l)

/-- The base that a number begins with, `0x`, `0o` or `0b`, and the input after it. -/
def base? (i : Input) : Option (Nat × Input) :=
  match i.rest with
  | '0' :: _ =>
    let (_, j) := Input.span (· == '_') i.tail.pos i.tail.rest
    match j.rest with
    | 'x' :: _ | 'X' :: _ => some (16, j.tail)
    | 'o' :: _ | 'O' :: _ => some (8, j.tail)
    | 'b' :: _ | 'B' :: _ => some (2, j.tail)
    | _ => none
  | _ => none

/-- A number in another base; it gives the 64 bits of an integer and has no fraction. -/
def basedNumber (base : Nat) (i : Input) : Except SyntaxFault (TokenKind × Input) :=
  let isDigit (c : Char) : Bool := if base = 16 then (digitValue? c).isSome else c.isDigit
  let (ds, j) := Input.span (fun c => isDigit c || c == '_') i.pos i.rest
  match numeral? base ds, fraction j with
  | some n, none =>
    if n ≤ maxInt then .ok (.int n, j)
    else if n < pow2 64 then .ok (.int (n - pow2 64), j)
    else .error ⟨.malformedNumber, i.pos⟩
  | _, _ => .error ⟨.malformedNumber, i.pos⟩

/-- A number; a sign right before it belongs to it, which only a decimal number can have. -/
def number (negative : Bool) (i : Input) : Except SyntaxFault (TokenKind × Input) :=
  match base? i with
  | some (base, j) => if negative then .error ⟨.malformedNumber, i.pos⟩ else basedNumber base j
  | none => .ok (decimalNumber negative i)

/-- The signs after which a value begins, so that a minus sign after them belongs to a number. -/
def openingSigns : List String :=
  [";", ":", ",", "??", "..", "..=", "\x7b", "(", "[", "?[", "+", "+=", "-", "-=", "*", "*=",
   "/", "/=", "%", "%=", "**", "**=", "<<", "<<=", ">>", ">>=", "=", "==", "!=", "<", ">", "<=",
   ">=", "!", "|", "|=", "||", "&", "&=", "&&", "^", "^="]

/-- The words after which a value begins. -/
def openingWords : List String := ["if", "while", "until", "in", "return", "throw"]

/-- A minus sign right after this token belongs to the number that follows it. -/
def opensValue : TokenKind → Bool
  | .symbol sign => openingSigns.contains sign
  | .keyword word => openingWords.contains word
  | _ => false

/-! ### Texts -/

/-- The code point that `count` hexadecimal digits stand for. -/
def codePoint? (count : Nat) (i : Input) : Option (Char × Input) := do
  let ds := i.rest.take count
  if ds.length < count then none
  let n ← numeral? 16 ds
  if ds.contains '_' then none
  if h : n.isValidChar then some (Char.ofNatAux n h, i.drop count) else none

/-- The character after a backslash. -/
def escaped? (quote : Char) (i : Input) : Option (Char × Input) :=
  match i.rest with
  | '\\' :: _ => some ('\\', i.tail)
  | 't' :: _ => some ('\t', i.tail)
  | 'n' :: _ => some ('\n', i.tail)
  | 'r' :: _ => some ('\r', i.tail)
  | 'x' :: _ => codePoint? 2 i.tail
  | 'u' :: _ => codePoint? 4 i.tail
  | 'U' :: _ => codePoint? 8 i.tail
  | c :: _ => if c = quote then some (c, i.tail) else none
  | [] => none

/-- The input after a backslash at the end of a line. -/
def joinedLine? (i : Input) : Option Input :=
  match i.rest with
  | '\\' :: '\n' :: _ => some (i.drop 2)
  | '\\' :: '\r' :: '\n' :: _ => some (i.drop 3)
  | _ => none

/-- The characters of a text up to its closing quote, which may be written twice to stand for
itself.  In a text between double quotes a backslash at the end of a line joins the next line to
it; the first blanks there, as far as the column of the opening quote, are its indentation and are
passed over.  `margin` is that column until a character ends the indentation. -/
def quotedText (quote : Char) (start : Pos) :
    Nat → Nat → Input → Except SyntaxFault (List Char × Input)
  | 0, _, _ => .error ⟨.unterminatedText, start⟩
  | fuel + 1, margin, i =>
    let unterminated := .error ⟨.unterminatedText, start⟩
    match i.rest with
    | [] => unterminated
    | '\n' :: _ => unterminated
    | '\r' :: '\n' :: _ => unterminated
    | '\\' :: _ =>
      match joinedLine? i, escaped? quote i.tail with
      | some j, _ =>
        if quote = '"' then quotedText quote start fuel start.column j else unterminated
      | none, some (c, j) => do
        let (cs, k) ← quotedText quote start fuel margin j
        return (c :: cs, k)
      | none, none => .error ⟨.malformedEscape, i.pos⟩
    | c :: rest =>
      if c = quote then
        if rest.head? = some quote then do
          let (cs, k) ← quotedText quote start fuel 0 (i.drop 2)
          return (c :: cs, k)
        else .ok ([], i.tail)
      else if Text.isBlank c && i.pos.column ≤ margin then
        quotedText quote start fuel margin i.tail
      else do
        let (cs, k) ← quotedText quote start fuel 0 i.tail
        return (c :: cs, k)

/-- A closing quote and `marks` hash signs. -/
def closesRaw (marks : Nat) (rest : List Char) : Bool :=
  ('"' :: List.replicate marks '#').isPrefixOf rest

/-- The characters of a raw text up to its end; nothing in it stands for anything else. -/
def rawText (marks : Nat) (start : Pos) : Pos → List Char → Except SyntaxFault (List Char × Input)
  | _, [] => .error ⟨.unterminatedText, start⟩
  | pos, c :: rest =>
    if closesRaw marks (c :: rest) then .ok ([], Input.drop ⟨c :: rest, pos⟩ (marks + 1))
    else do
      let (cs, k) ← rawText marks start (pos.after c) rest
      return (c :: cs, k)

/-- A raw text, in quotes with as many hash signs before as after it. -/
def rawText? (i : Input) : Option (Except SyntaxFault (List Char × Input)) :=
  let (marks, j) := Input.span (· == '#') i.pos i.rest
  match marks, j.rest with
  | _ :: _, '"' :: rest => some (rawText marks.length i.pos (j.pos.after '"') rest)
  | _, _ => none

/-- The characters of a template up to its end or to the next block; the flag tells that a block
follows. -/
def templateText (start : Pos) : Nat → Input → Except SyntaxFault (List Char × Bool × Input)
  | 0, _ => .error ⟨.unterminatedText, start⟩
  | fuel + 1, i =>
    match i.rest with
    | [] => .error ⟨.unterminatedText, start⟩
    | '$' :: '\x7b' :: _ => .ok ([], true, i.tail)
    | '\r' :: '\n' :: _ => templateText start fuel i.tail
    | '\x60' :: '\x60' :: _ => do
      let (cs, more, k) ← templateText start fuel (i.drop 2)
      return ('\x60' :: cs, more, k)
    | '\x60' :: _ => .ok ([], false, i.tail)
    | c :: _ => do
      let (cs, more, k) ← templateText start fuel i.tail
      return (c :: cs, more, k)

/-- A template begins on the next line if nothing else stands on its line. -/
def templateStart (i : Input) : Input :=
  match i.rest with
  | '\r' :: '\n' :: rest | '\r' :: rest | '\n' :: rest => ⟨rest, i.pos.nextLine⟩
  | _ => i

/-! ### Signs -/

/-- The longest of several signs that the input begins with. -/
def longest (rest : List Char) (signs : List String) : Option String :=
  signs.foldl (fun best s =>
    if s.toList.isPrefixOf rest && (best.map String.length).getD 0 < s.length then some s else best)
    none

def symbolKind? (rest : List Char) : Option (TokenKind × Nat) :=
  match longest rest symbols, longest rest reservedSymbols with
  | some s, some r =>
    if s.length < r.length then some (.reserved r, r.length) else some (.symbol s, s.length)
  | some s, none => some (.symbol s, s.length)
  | none, some r => some (.reserved r, r.length)
  | none, none => none

/-! ### The whole text -/

/-- The token at the front of the input, which has at most `size` characters; the flag tells that
a minus sign there belongs to the number after it. -/
def token (size : Nat) (signed : Bool) (i : Input) : Except SyntaxFault (TokenKind × Input) :=
  match i.rest with
  | [] => .ok (.done, i)
  | '"' :: _ => do
    let (cs, j) ← quotedText '"' i.pos size 0 i.tail
    return (.string (String.ofList cs), j)
  | '\'' :: '\'' :: _ => .error ⟨.malformedCharacter, i.pos⟩
  | '\'' :: _ => do
    let (cs, j) ← quotedText '\'' i.pos size 0 i.tail
    match cs with
    | [c] => return (.char c, j)
    | _ => throw ⟨.malformedCharacter, i.pos⟩
  | c :: rest =>
    if c.isDigit then number false i
    else if signed && c == '-' && rest.head?.any Char.isDigit then number true i.tail
    else if isNameStart c then
      let (word, j) := Input.span isNamePart i.pos i.rest
      if word = ['_'] then .ok (.symbol "_", j)
      else if isName word then .ok (wordKind (String.ofList word), j)
      else .error ⟨.malformedName, i.pos⟩
    else
      match rawText? i, symbolKind? (c :: rest) with
      | some raw, _ => raw.map fun (cs, j) => (.string (String.ofList cs), j)
      | none, some (kind, n) => .ok (kind, i.drop n)
      | none, none => .error ⟨.unexpectedInput, i.pos⟩

/-- A piece of a template and the tokens after it, from at most `size` characters; `blocks` are
the braces opened in each block that is still open.  The brace that opens a block is no token. -/
def tokensWith (size : Nat) (next : Bool → List Nat → Input → Except SyntaxFault (List Token))
    (start : Pos) (blocks : List Nat) (i : Input) : Except SyntaxFault (List Token) := do
  let (cs, more, j) ← templateText start (size + 1) i
  if more then
    return ⟨.piece (String.ofList cs), start⟩ :: (← next true (0 :: blocks) j.tail)
  else return ⟨.string (String.ofList cs), start⟩ :: (← next false blocks j)

/-- The tokens of the input; the flag tells that a minus sign at its front belongs to the number
after it.  Every turn takes at least a character, so there are no more of them left than turns. -/
def tokens : Nat → Bool → List Nat → Input → Except SyntaxFault (List Token)
  | 0, _, _, i => .ok [⟨.done, i.pos⟩]
  | fuel + 1, signed, blocks, i => do
    let i := pastGap fuel i
    match i.rest, blocks with
    | '\x60' :: _, _ => tokensWith fuel (tokens fuel) i.pos blocks (templateStart i.tail)
    | '\x7d' :: _, 0 :: outer =>
      return ⟨.symbol "\x7d", i.pos⟩ :: (← tokensWith fuel (tokens fuel) i.tail.pos outer i.tail)
    | _, _ =>
      let (kind, j) ← token fuel signed i
      let blocks :=
        match kind, blocks with
        | .symbol "\x7b", n :: outer | .symbol "#\x7b", n :: outer => (n + 1) :: outer
        | .symbol "\x7d", n :: outer => (n - 1) :: outer
        | _, _ => blocks
      if kind = .done then return [⟨.done, i.pos⟩]
      else return ⟨kind, i.pos⟩ :: (← tokens fuel (opensValue kind) blocks j)

end Lexer

/-- The tokens of a source text, with one at its end. -/
def tokenize (source : List Char) : Except SyntaxFault (List Token) :=
  Lexer.tokens (source.length + 1) true [] ⟨source, {}⟩

end Dialogue.Script
