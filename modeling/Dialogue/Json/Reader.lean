import Dialogue.Json.Fault

/-!
# Reading JSON text

A reader takes characters from a cursor and answers with a value or a fault; both leave the
cursor where the reading stopped.  Nesting is bounded: `room` is the number of brackets that may
still be opened, and each bracket opened leaves one less.

Loops over items are bounded by the length of the rest of the text, which every turn shortens.
-/

namespace Dialogue.Json

/-- What is left to read, and how far the text has been read. -/
structure Cursor where
  rest : List Char
  place : Place := ⟨1, 0⟩

/-- The place after one more byte; a line break starts the next line. -/
def Place.afterByte (p : Place) (c : Char) : Place :=
  if c = '\n' then ⟨p.line + 1, 0⟩ else ⟨p.line, p.column + 1⟩

/-- The place after one more character. -/
def Place.after (p : Place) (c : Char) : Place :=
  if c = '\n' then ⟨p.line + 1, 0⟩ else ⟨p.line, p.column + c.utf8Size⟩

/-- The place after some more bytes of `rest`, which may end inside a character. -/
def Place.afterBytes (p : Place) : Nat → List Char → Place
  | _, [] => p
  | n, c :: rest =>
    if n < c.utf8Size then ⟨p.line, p.column + n⟩
    else (p.after c).afterBytes (n - c.utf8Size) rest

abbrev Reader := EStateM Fault Cursor

namespace Reader

/-! ### Characters -/

def peek? : Reader (Option Char) := return (← get).rest.head?

/-- Takes one character, if there is one. -/
def skip : Reader Unit :=
  modify fun s =>
    match s.rest with
    | [] => s
    | c :: rest => ⟨rest, s.place.after c⟩

/-- A fault at the cursor. -/
def failHere {α : Type} (cause : Cause) : Reader α := do
  throw ⟨cause, some (← get).place⟩

/-- A fault at the next character: the place counts its first byte. -/
def failNext {α : Type} (cause : Cause) : Reader α := do
  let s ← get
  throw ⟨cause, some ((s.rest.head?.map s.place.afterByte).getD s.place)⟩

/-- A fault that gets its place from the list or object it happened in. -/
def failUnplaced {α : Type} (cause : Cause) : Reader α := throw ⟨cause, none⟩

/-- Gives a fault without a place the place of the cursor. -/
def placed {α : Type} (r : Reader α) : Reader α :=
  tryCatch r fun f =>
    match f.place with
    | some _ => throw f
    | none => failHere f.cause

def isGap (c : Char) : Bool := c == ' ' || c == '\n' || c == '\t' || c == '\r'

/-- The cursor after the gap at its start. -/
def Cursor.pastGap (place : Place) : List Char → Cursor
  | [] => ⟨[], place⟩
  | c :: rest => if isGap c then pastGap (place.after c) rest else ⟨c :: rest, place⟩

/-- Passes over blanks and shows the character after them. -/
def next? : Reader (Option Char) := do
  modify fun s => Cursor.pastGap s.place s.rest
  peek?

/-- The rest of a word whose first letter has been taken. -/
def word : List Char → Reader Unit
  | [] => pure ()
  | c :: cs => do
    match ← peek? with
    | none => failHere .endInValue
    | some d => if d = c then do skip; word cs else failNext .expectedWord

/-! ### Strings -/

def hexValue? (c : Char) : Option Nat :=
  if '0' ≤ c ∧ c ≤ '9' then some (c.toNat - '0'.toNat)
  else if 'a' ≤ c ∧ c ≤ 'f' then some (c.toNat - 'a'.toNat + 10)
  else if 'A' ≤ c ∧ c ≤ 'F' then some (c.toNat - 'A'.toNat + 10)
  else none

def hexValues? : List Char → Option Nat :=
  List.foldlM (fun n c => do return 16 * n + (← hexValue? c)) 0

/-- The four digits of a `\u` escape. -/
def fourHexDigits : Reader Nat := do
  let s ← get
  if (s.rest.take 4).foldl (fun n c => n + c.utf8Size) 0 < 4 then
    throw ⟨.endInString, some (s.rest.foldl Place.after s.place)⟩
  match hexValues? (s.rest.take 4) with
  | some n => do skip; skip; skip; skip; pure n
  | none => throw ⟨.invalidEscape, some (s.place.afterBytes 4 s.rest)⟩

/-- The character of a `\u` escape whose `u` has been taken.  A leading surrogate needs a
trailing one right behind it. -/
def unicodeEscape : Reader Char := do
  let n ← fourHexDigits
  if 0xDC00 ≤ n && n ≤ 0xDFFF then failHere .loneSurrogate
  if n < 0xD800 || 0xDBFF < n then return Char.ofNat n
  for c in ['\\', 'u'] do
    match ← peek? with
    | none => failHere .endInString
    | some d => if d = c then skip else failNext .unfinishedSurrogate
  let m ← fourHexDigits
  if m < 0xDC00 || 0xDFFF < m then failHere .loneSurrogate
  return Char.ofNat ((n - 0xD800) * 0x400 + (m - 0xDC00) + 0x10000)

/-- The characters that stand for themselves or a control after a backslash. -/
def simpleEscape? : Char → Option Char
  | '"' => some '"'
  | '\\' => some '\\'
  | '/' => some '/'
  | 'b' => some '\x08'
  | 'f' => some '\x0c'
  | 'n' => some '\n'
  | 'r' => some '\r'
  | 't' => some '\t'
  | _ => none

/-- The character of an escape whose backslash has been taken. -/
def escape : Reader Char := do
  match ← peek? with
  | none => failHere .endInString
  | some 'u' => do skip; unicodeEscape
  | some c =>
    match simpleEscape? c with
    | some d => do skip; pure d
    | none => failNext .invalidEscape

/-- The characters up to the closing quote, which is taken too. -/
def stringChars : Nat → Reader (List Char)
  | 0 => failHere .endInString
  | fuel + 1 => do
    match ← peek? with
    | none => failHere .endInString
    | some '"' => do skip; pure []
    | some '\\' => do skip; return (← escape) :: (← stringChars fuel)
    | some c =>
      if c.toNat < 0x20 then failNext .controlCharacter
      else do skip; return c :: (← stringChars fuel)

/-- A string whose opening quote is next. -/
def string : Reader String := do
  skip
  return String.ofList (← stringChars ((← get).rest.length + 1))

/-! ### Numbers

A number with a fraction or an exponent is read quickly, and so is a whole number of more than 64
bits: the digits in front, as far as 64 bits hold them, are scaled by powers of ten, with a
rounding for each.  So what is read may be a neighbour of the nearest number.
-/

/-- The digits at the cursor, as characters. -/
def digits : Nat → Reader (List Char)
  | 0 => pure []
  | fuel + 1 => do
    match ← peek? with
    | some c => if c.isDigit then do skip; return c :: (← digits fuel) else pure []
    | none => pure []

def allDigits : Reader (List Char) := do digits (← get).rest.length

/-- The largest power of ten that is still counted. -/
def largestExponent : Nat := pow2 31 - 1

/-- The digits of an exponent.  Past the largest one the number is zero or out of range. -/
def exponentDigits (tooLarge : Bool) : Nat → Nat → Reader Nat
  | 0, n => pure n
  | fuel + 1, n => do
    match ← peek? with
    | some c =>
      if c.isDigit then
        skip
        let n := 10 * n + (c.toNat - '0'.toNat)
        if tooLarge && largestExponent < n then failHere .numberOutOfRange
        exponentDigits tooLarge fuel (min n (largestExponent + 1))
      else pure n
    | none => pure n

/-- The sign of an exponent, if there is one; whether it is a minus. -/
def exponentSign : Reader Bool := do
  match ← peek? with
  | some '+' => do skip; pure false
  | some '-' => do skip; pure true
  | _ => pure false

/-- The exponent behind its sign. -/
def exponentValue (isZero negative : Bool) : Reader Int := do
  match ← peek? with
  | none => failHere .endInValue
  | some c =>
    if c.isDigit then
      let n ← exponentDigits (!isZero && !negative) (← get).rest.length 0
      return if negative then -(n : Int) else n
    else failNext .invalidNumber

/-- The exponent after `e`, which is next. -/
def exponent (isZero : Bool) : Reader Int := do
  skip
  exponentValue isZero (← exponentSign)

/-- The number that digits stand for after some others, as far as 64 bits hold it, and how many
digits are left. -/
def held (n : Nat) : List Char → Nat × Nat
  | [] => (n, 0)
  | c :: rest =>
    let m := 10 * n + (c.toNat - '0'.toNat)
    if m < pow2 64 then held m rest else (n, rest.length + 1)

/-- A number that is not whole, from the digits held and the power of ten of the last of them. -/
def floating (negative : Bool) (digits : Nat) (power : Int) : Reader Json := do
  let x := (Binary64.ofInt digits).timesPower power
  if x.isFinite then pure (.float (if negative then x.neg else x)) else failHere .numberOutOfRange

/-- A whole number whose digits are held: of the words' range, or else floating. -/
def whole (negative : Bool) (n : Nat) : Reader Json :=
  if !negative then pure (.int n)
  else if n = 0 then pure (.float (Binary64.zero true))
  else if n ≤ pow2 63 then pure (.int (-n))
  else floating true n 0

/-- The digits of the whole part.  Only by itself does a zero stand in front. -/
def wholeDigits : Reader (List Char) := do
  match ← peek? with
  | none => failHere .endInValue
  | some '0' => do
    skip
    match ← peek? with
    | some c => if c.isDigit then failNext .invalidNumber else pure ['0']
    | none => pure ['0']
  | some c => if c.isDigit then allDigits else failNext .invalidNumber

/-- A number behind its digits: with an exponent it is floating, without one it is `plain`. -/
def scaled (negative : Bool) (digits : Nat) (power : Int) (plain : Reader Json) : Reader Json := do
  match ← peek? with
  | some 'e' | some 'E' => do floating negative digits ((← exponent (digits == 0)) + power)
  | _ => plain

/-- A number from the point on, which is next; `n` is held and `left` digits are not. -/
def fractional (negative : Bool) (n left : Nat) : Reader Json := do
  skip
  let fraction ← allDigits
  if fraction.isEmpty then
    if (← peek?).isSome then failNext .invalidNumber else failHere .endInValue
  let (m, dropped) := held n fraction
  let power : Int := left + dropped - fraction.length
  scaled negative m power (floating negative m power)

/-- A number whose sign, if any, has been taken. -/
def number (negative : Bool) : Reader Json := do
  let (n, left) := held 0 (← wholeDigits)
  match ← peek? with
  | some '.' => fractional negative n left
  | _ => scaled negative n left (if left = 0 then whole negative n else floating negative n left)

/-! ### Lists and objects -/

/-- The end of a list whose items have been read. -/
def endList : Reader Unit := do
  match ← next? with
  | some ']' => skip
  | some ',' => do
    skip
    match ← next? with
    | some ']' => failNext .trailingComma
    | _ => failNext .trailingCharacters
  | some _ => failNext .trailingCharacters
  | none => failHere .endInList

/-- The end of an object whose fields have been read. -/
def endObject : Reader Unit := do
  match ← next? with
  | some '\x7d' => skip
  | some ',' => failNext .trailingComma
  | some _ => failNext .trailingCharacters
  | none => failHere .endInObject

/-- Reads to the closing bracket also when the inside was at fault, which then stands. -/
def closing {α : Type} (close : Reader Unit) (inside : Reader α) : Reader α := do
  let a ← tryCatch inside fun f => do
    tryCatch close fun _ => pure ()
    throw f
  close
  pure a

/-- Whether a list goes on with another item. -/
def hasItem (first : Bool) : Reader Bool := do
  match ← next? with
  | none => failHere .endInList
  | some ']' => pure false
  | some c =>
    if first then pure true
    else if c = ',' then do
      skip
      match ← next? with
      | some ']' => failNext .trailingComma
      | some _ => pure true
      | none => failHere .endInValue
    else failNext .expectedListEnd

/-- Whether an object goes on with another key. -/
def hasKey (first : Bool) : Reader Bool := do
  match ← next? with
  | none => failHere .endInObject
  | some '\x7d' => pure false
  | some c =>
    if first then if c = '"' then pure true else failNext .keyNotString
    else if c = ',' then do
      skip
      match ← next? with
      | some '"' => pure true
      | some '\x7d' => failNext .trailingComma
      | some _ => failNext .keyNotString
      | none => failHere .endInValue
    else failNext .expectedObjectEnd

def colon : Reader Unit := do
  match ← next? with
  | some ':' => skip
  | some _ => failNext .expectedColon
  | none => failHere .endInObject

/-- The items up to the closing bracket, which stays. -/
def items {α : Type} (item : Reader α) (first : Bool) : Nat → Reader (List α)
  | 0 => pure []
  | fuel + 1 => do
    if ← hasItem first then return (← item) :: (← items item false fuel) else pure []

def allItems {α : Type} (item : Reader α) (first : Bool) : Reader (List α) := do
  items item first ((← get).rest.length + 1)

/-- Takes each key with `step`, which reads the colon and the value. -/
def fields {σ : Type} (step : σ → String → Reader σ) (first : Bool) : Nat → σ → Reader σ
  | 0, s => pure s
  | fuel + 1, s => do
    if ← hasKey first then
      let name ← string
      fields step false fuel (← step s name)
    else pure s

def allFields {σ : Type} (step : σ → String → Reader σ) (s : σ) : Reader σ := do
  fields step true ((← get).rest.length + 1) s

/-! ### Any value -/

/-- A value, with readers for the brackets. -/
def valueWith (list object : Reader Json) : Reader Json := do
  match ← next? with
  | none => failHere .endInValue
  | some 'n' => do skip; word ['u', 'l', 'l']; pure .null
  | some 't' => do skip; word ['r', 'u', 'e']; pure (.bool true)
  | some 'f' => do skip; word ['a', 'l', 's', 'e']; pure (.bool false)
  | some '-' => do skip; number true
  | some '"' => return .string (← string)
  | some '[' => list
  | some '\x7b' => object
  | some c => if c.isDigit then number false else failNext .expectedValue

/-- Any value with at most `room` brackets inside each other. -/
def value : Nat → Reader Json
  | 0 => valueWith (failNext .tooDeep) (failNext .tooDeep)
  | room + 1 =>
    valueWith
      (do skip; return .array (← closing endList (allItems (value room) true)))
      (do
        skip
        let step := fun done name => do
          colon
          return (name, ← value room) :: done
        return .object (← closing endObject (allFields step [])).reverse)

/-! ### Values that are passed over

An unknown field's value is held to the grammar, but not to the range of numbers, the pairing of
surrogates or the bound on nesting.  A control character in it is a fault in front of it.
-/

def skipHexDigits : Reader Unit := do let _ ← fourHexDigits

def skipStringChars : Nat → Reader Unit
  | 0 => failHere .endInString
  | fuel + 1 => do
    match ← peek? with
    | none => failHere .endInString
    | some '"' => skip
    | some '\\' => do
      skip
      match ← peek? with
      | none => failHere .endInString
      | some 'u' => do skip; skipHexDigits; skipStringChars fuel
      | some c =>
        if (simpleEscape? c).isSome then do skip; skipStringChars fuel
        else failNext .invalidEscape
    | some c => if c.toNat < 0x20 then failHere .controlCharacter else do skip; skipStringChars fuel

def skipString : Reader Unit := do
  skip
  skipStringChars ((← get).rest.length + 1)

def skipExponent : Reader Unit := do
  skip
  match ← peek? with
  | some '+' | some '-' => skip
  | _ => pure ()
  if (← allDigits).isEmpty then failNext .invalidNumber

def skipNumber : Reader Unit := do
  match ← peek? with
  | some '0' => do
    skip
    if (← peek?).any Char.isDigit then failNext .invalidNumber
  | _ => if (← allDigits).isEmpty then failNext .invalidNumber
  match ← peek? with
  | some '.' => do
    skip
    if (← allDigits).isEmpty then failNext .invalidNumber
    match ← peek? with
    | some 'e' | some 'E' => skipExponent
    | _ => pure ()
  | some 'e' | some 'E' => skipExponent
  | _ => pure ()

mutual

def skipValueWithin : Nat → Reader Unit
  | 0 => failHere .endInValue
  | fuel + 1 => do
    match ← next? with
    | none => failHere .endInValue
    | some 'n' => do skip; word ['u', 'l', 'l']
    | some 't' => do skip; word ['r', 'u', 'e']
    | some 'f' => do skip; word ['a', 'l', 's', 'e']
    | some '-' => do skip; skipNumber
    | some '"' => skipString
    | some '[' => do skip; skipItems true fuel
    | some '\x7b' => do skip; skipFields true fuel
    | some c => if c.isDigit then skipNumber else failNext .expectedValue

def skipItems (first : Bool) : Nat → Reader Unit
  | 0 => failHere .endInList
  | fuel + 1 => do
    match ← next? with
    | none => failHere .endInList
    | some ']' => skip
    | some c =>
      if first then do skipValueWithin fuel; skipItems false fuel
      else if c = ',' then do skip; skipValueWithin fuel; skipItems false fuel
      else failNext .expectedListEnd

def skipFields (first : Bool) : Nat → Reader Unit
  | 0 => failHere .endInObject
  | fuel + 1 => do
    match ← next? with
    | none => failHere .endInObject
    | some '\x7d' => skip
    | some c =>
      if !first && c != ',' then failNext .expectedObjectEnd
      if !first then skip
      match ← next? with
      | some '"' => do
        skipString
        colon
        skipValueWithin fuel
        skipFields false fuel
      | some _ => failNext .keyNotString
      | none => failHere .endInObject

end

/-- Passes over a value. -/
def skipValue : Reader Unit := do skipValueWithin (2 * (← get).rest.length + 2)

/-! ### Whole texts -/

/-- The end of the text, after blanks. -/
def endText : Reader Unit := do
  match ← next? with
  | none => pure ()
  | some _ => failNext .trailingCharacters

/-- The number of brackets that a text may open inside each other. -/
def deepest : Nat := 127

/-- Reads the whole of a text. -/
def readAll {α : Type} (r : Reader α) (text : String) : Except Fault α :=
  match (do let a ← r; endText; pure a : Reader α) ⟨text.toList, ⟨1, 0⟩⟩ with
  | .ok a _ => .ok a
  | .error f _ => .error f

end Reader

/-- The value a text stands for. -/
def parse (text : String) : Except Fault Json := Reader.readAll (Reader.value Reader.deepest) text

end Dialogue.Json
