import TypeLineage.Json.Fault

/-!
# Reading JSON

A line of text, as its bytes in UTF-8, read from left to right. The first fault ends the reading.

## The model

A `Cursor` holds the bytes that are left and counts those behind it. A fault is found either *at*
the cursor, behind what has been read, or *in* the next byte, which is then counted as well. A value
may be nested in lists and objects up to a depth; a `budget` that is larger than the number of bytes
left lets the recursion end.
-/

namespace TypeLineage.Json

/-- A place in a line. -/
structure Cursor where
  /-- The bytes that are left. -/
  rest : List UInt8
  /-- How many bytes have been read. -/
  read : Nat := 0
  deriving Repr

/-- Reads something at a cursor and moves it on. -/
abbrev Reading := StateT Cursor (Except Fault)

/-- The start of a line. -/
def Cursor.start (line : String) : Cursor :=
  { rest := line.toUTF8.toList }

/-- The cursor behind some more bytes. -/
def Cursor.advance (cursor : Cursor) (count : Nat) : Cursor :=
  { rest := cursor.rest.drop count, read := cursor.read + (cursor.rest.take count).length }

/-- The fault of a cause at the cursor. -/
def Cursor.faultAt (cursor : Cursor) (cause : Cause) : Fault :=
  { cause, column := some cursor.read }

/-- The fault of a cause in the next byte, or at the cursor if there is none. -/
def Cursor.faultIn (cursor : Cursor) (cause : Cause) : Fault :=
  { cause, column := some (if cursor.rest.isEmpty then cursor.read else cursor.read + 1) }

namespace Reading

/-- Fails at the cursor. -/
def failAt {α : Type} (cause : Cause) : Reading α := do
  throw ((← get).faultAt cause)

/-- Fails in the next byte. -/
def failIn {α : Type} (cause : Cause) : Reading α := do
  throw ((← get).faultIn cause)

/-- Moves on by some bytes. -/
def skip (count : Nat) : Reading PUnit :=
  modify (·.advance count)

/-- The next byte, which is not read yet. -/
def peek? : Reading (Option UInt8) := do
  return (← get).rest.head?

/-- Reads the next byte. -/
def next? : Reading (Option UInt8) := do
  let byte ← peek?
  skip 1
  return byte

end Reading

open Reading

/-- Whether a byte stands for a character. -/
def isThe (c : Char) (byte : UInt8) : Bool :=
  byte.toNat == c.toNat

/-- Whether a byte is a blank between the parts of a value. -/
def isBlankByte (byte : UInt8) : Bool :=
  isThe ' ' byte || isThe '\n' byte || isThe '\t' byte || isThe '\r' byte

/-- Whether a byte is a decimal digit. -/
def isDigit (byte : UInt8) : Bool :=
  '0'.toNat ≤ byte.toNat && byte.toNat ≤ '9'.toNat

/-- The value of a decimal digit. -/
def digitValue (byte : UInt8) : Nat :=
  byte.toNat - '0'.toNat

/-- Skips blanks. -/
def skipBlanks : Reading PUnit := do
  skip ((← get).rest.takeWhile isBlankByte).length

/-- Skips blanks and looks at the next byte. -/
def peekPart? : Reading (Option UInt8) := do
  skipBlanks
  peek?

/-- Reads the rest of a word. -/
def readWord : List Char → Reading PUnit
  | [] => return
  | c :: rest => do
    match ← next? with
    | none => failAt .endInValue
    | some byte => if isThe c byte then readWord rest else failAt .wordExpected

/-! ### Numbers -/

/-- The digits that come next. -/
def peekDigits : Reading (List Nat) := do
  return ((← get).rest.takeWhile isDigit).map digitValue

/-- Puts digits behind a number as long as it stays below a bound; the digits that are left over. -/
def takeDigits (bound number : Nat) : List Nat → Nat × List Nat
  | [] => (number, [])
  | digit :: rest =>
    if 10 * number + digit < bound then takeDigits bound (10 * number + digit) rest
    else (number, digit :: rest)

/-- The bound of the digits that a number keeps. -/
def digitBound : Nat := 1 <<< 64

/-- The bound of exponents that are calculated with. -/
def exponentBound : Nat := 1 <<< 31

/-- The number of some digits, a sign and an exponent. -/
def realOf (isNegative : Bool) (digits : Nat) (exponent : Int) : Reading Json := do
  match Double.ofDecimal? digits exponent with
  | some size => return .real isNegative size
  | none => failAt .outOfRange

/-- Reads an exponent, when its letter comes next, for a number that has an exponent already. -/
def readExponent (isNegative : Bool) (digits : Nat) (before : Int) : Reading Json := do
  skip 1
  let sign ← peek?
  let isUp := !sign.any (isThe '-')
  if sign.any (isThe '+') || sign.any (isThe '-') then skip 1
  match ← peek? with
  | none => failAt .endInValue
  | some byte =>
    if !isDigit byte then
      skip 1
      failAt .badNumber
    else
      let written ← peekDigits
      let (exponent, left) := takeDigits exponentBound 0 written
      skip (written.length - left.length)
      if left.isEmpty then
        realOf isNegative digits (if isUp then before + exponent else before - exponent)
      else if digits ≠ 0 && isUp then
        skip 1
        failAt .outOfRange
      else
        skip left.length
        return .real isNegative .zero

/-- Reads an exponent if there is one. -/
def readExponentIfAny (isNegative : Bool) (digits : Nat) (exponent : Int) : Reading Json := do
  let letter ← peek?
  if letter.any (isThe 'e') || letter.any (isThe 'E') then readExponent isNegative digits exponent
  else realOf isNegative digits exponent

/-- Reads the digits behind the point, when the point comes next. What does not fit any more is
passed over. -/
def readFraction (isNegative : Bool) (digits : Nat) (before : Int) : Reading Json := do
  skip 1
  let written ← peekDigits
  if written.isEmpty then
    failIn (if (← peek?).isSome then .badNumber else .endInValue)
  else
    let (digits, left) := takeDigits digitBound digits written
    skip written.length
    readExponentIfAny isNegative digits (before - (written.length - left.length : Nat))

/-- The whole number of some digits and a sign. Zero has no negative form among these, and neither
has what does not fit into a word. -/
def wholeOf (isNegative : Bool) (digits : Nat) : Reading Json :=
  if !isNegative then return .natural digits
  else if 0 < digits ∧ digits ≤ 1 <<< 63 then return .negative digits
  else realOf true digits 0

/-- Reads what follows the digits before the point; so many of them are left over. -/
def readBehindWhole (isNegative : Bool) (digits left : Nat) : Reading Json := do
  let mark ← peek?
  if mark.any (isThe '.') then readFraction isNegative digits left
  else if left = 0 && !mark.any (isThe 'e') && !mark.any (isThe 'E') then wholeOf isNegative digits
  else readExponentIfAny isNegative digits left

/-- Reads a number behind its sign. -/
def readNumber (isNegative : Bool) : Reading Json := do
  let written ← peekDigits
  match written with
  | [] =>
    match ← next? with
    | none => failAt .endInValue
    | some _ => failAt .badNumber
  | 0 :: more =>
    skip 1
    if more.isEmpty then readBehindWhole isNegative 0 0 else failIn .badNumber
  | _ =>
    let (digits, left) := takeDigits digitBound 0 written
    skip written.length
    readBehindWhole isNegative digits left.length

/-! ### Strings -/

/-- The value of a digit to base sixteen. -/
def hexValue? (byte : UInt8) : Option Nat :=
  if isDigit byte then some (digitValue byte)
  else if 'a'.toNat ≤ byte.toNat ∧ byte.toNat ≤ 'f'.toNat then some (byte.toNat - 'a'.toNat + 10)
  else if 'A'.toNat ≤ byte.toNat ∧ byte.toNat ≤ 'F'.toNat then some (byte.toNat - 'A'.toNat + 10)
  else none

/-- The number of some digits to base sixteen. -/
def hexNumber? (bytes : List UInt8) : Option Nat :=
  bytes.foldl (fun number byte => do return 16 * (← number) + (← hexValue? byte)) (some 0)

/-- Reads four digits to base sixteen. -/
def readHex : Reading Nat := do
  let digits := (← get).rest.take 4
  skip 4
  if digits.length < 4 then failAt .endInString
  else
    match hexNumber? digits with
    | some number => return number
    | none => failAt .badEscape

/-- The bytes of a character. -/
def bytesOf (c : Char) : List UInt8 :=
  (String.singleton c).toUTF8.toList

/-- Reads a character that has to come next within an escape. -/
def readEscapeMark (c : Char) : Reading PUnit := do
  match ← peek? with
  | none => failAt .endInString
  | some byte =>
    skip 1
    if isThe c byte then return else failAt .halfSurrogate

/-- Reads an escape by number, which may need a second one to make up a character. -/
def readNumberEscape : Reading (List UInt8) := do
  let first ← readHex
  if 0xDC00 ≤ first ∧ first ≤ 0xDFFF then failAt .loneSurrogate
  else if first < 0xD800 ∨ 0xDFFF < first then return bytesOf (Char.ofNat first)
  else
    readEscapeMark '\\'
    readEscapeMark 'u'
    let second ← readHex
    if second < 0xDC00 ∨ 0xDFFF < second then failAt .loneSurrogate
    else return bytesOf (Char.ofNat (0x10000 + 0x400 * (first - 0xD800) + (second - 0xDC00)))

/-- The characters that are written by one letter behind a backslash. -/
def shortEscapes : List (Char × Char) :=
  [('"', '"'), ('\\', '\\'), ('/', '/'), ('b', '\x08'), ('f', '\x0c'), ('n', '\n'), ('r', '\r'),
    ('t', '\t')]

/-- Reads an escape behind its backslash. -/
def readEscape : Reading (List UInt8) := do
  match ← next? with
  | none => failAt .endInString
  | some byte =>
    if isThe 'u' byte then readNumberEscape
    else
      match shortEscapes.find? fun escape => isThe escape.1 byte with
      | some escape => return bytesOf escape.2
      | none => failAt .badEscape

/-- Reads the bytes of a string up to its end, when some have been read, the last one first. -/
def readStringBytes : Nat → List UInt8 → Reading (List UInt8)
  | 0, _ => failAt .endInString
  | budget + 1, bytes => do
    match ← next? with
    | none => failAt .endInString
    | some byte =>
      if isThe '"' byte then return bytes.reverse
      else if isThe '\\' byte then
        let escaped ← readEscape
        readStringBytes budget (escaped.reverse ++ bytes)
      else if byte < 32 then failAt .controlCharacter
      else readStringBytes budget (byte :: bytes)

/-- Reads a string behind its first quote. -/
def readString : Reading String := do
  let bytes ← readStringBytes ((← get).rest.length + 1) []
  return (String.fromUTF8? (ByteArray.mk bytes.toArray)).getD ""

/-! ### Values -/

/-- Reads a value that holds no other, given its first byte, which comes next. -/
def readScalar (first : UInt8) : Reading Json := do
  if isThe 'n' first then
    skip 1
    readWord ['u', 'l', 'l']
    return .null
  else if isThe 't' first then
    skip 1
    readWord ['r', 'u', 'e']
    return .bool true
  else if isThe 'f' first then
    skip 1
    readWord ['a', 'l', 's', 'e']
    return .bool false
  else if isThe '-' first then
    skip 1
    readNumber true
  else if isDigit first then
    readNumber false
  else if isThe '"' first then
    skip 1
    return .string (← readString)
  else
    failIn .valueExpected

/-- Whether a list goes on, given whether an item has been read. -/
def hasNextItem (isFirst : Bool) : Reading Bool := do
  match ← peekPart? with
  | none => failIn .endInList
  | some byte =>
    if isThe ']' byte then return false
    else if isFirst then return true
    else if isThe ',' byte then
      skip 1
      match ← peekPart? with
      | none => failIn .endInValue
      | some byte => if isThe ']' byte then failIn .trailingComma else return true
    else failIn .listCommaExpected

/-- Whether an object goes on, given whether a member has been read. Then the quote of a name comes
next. -/
def hasNextMember (isFirst : Bool) : Reading Bool := do
  match ← peekPart? with
  | none => failIn .endInObject
  | some byte =>
    if isThe '}' byte then return false
    else if isFirst then
      if isThe '"' byte then return true else failIn .nameExpected
    else if isThe ',' byte then
      skip 1
      match ← peekPart? with
      | none => failIn .endInValue
      | some byte =>
        if isThe '"' byte then return true
        else if isThe '}' byte then failIn .trailingComma
        else failIn .nameExpected
    else failIn .objectCommaExpected

/-- Reads the name of a member, whose quote comes next. -/
def readName : Reading String := do
  skip 1
  readString

/-- Reads the colon behind a name. -/
def readColon : Reading PUnit := do
  match ← peekPart? with
  | none => failIn .endInObject
  | some byte => if isThe ':' byte then skip 1 else failIn .colonExpected

/-- How deeply lists and objects may be nested. -/
def deepest : Nat := 127

mutual

/-- Reads a value, nested in so many others at most. -/
def readValue : Nat → Nat → Reading Json
  | 0, _ => failIn .endInValue
  | budget + 1, depth => do
    match ← peekPart? with
    | none => failIn .endInValue
    | some byte =>
      if isThe '[' byte || isThe '{' byte then
        if depth = 0 then failIn .tooDeep
        else
          skip 1
          if isThe '[' byte then return .array (← readItems budget (depth - 1) true)
          else return .object (← readMembers budget (depth - 1) true)
      else readScalar byte

/-- Reads the items of a list up to its end, given whether the first one comes next. -/
def readItems : Nat → Nat → Bool → Reading (List Json)
  | 0, _, _ => failIn .endInList
  | budget + 1, depth, isFirst => do
    if ← hasNextItem isFirst then
      let item ← readValue budget depth
      return item :: (← readItems budget depth false)
    else
      skip 1
      return []

/-- Reads the members of an object up to its end, given whether the first one comes next. -/
def readMembers : Nat → Nat → Bool → Reading (List (String × Json))
  | 0, _, _ => failIn .endInObject
  | budget + 1, depth, isFirst => do
    if ← hasNextMember isFirst then
      let name ← readName
      readColon
      let value ← readValue budget depth
      return (name, value) :: (← readMembers budget depth false)
    else
      skip 1
      return []

end

/-- A budget that reads everything from the cursor on. -/
def fullBudget : Reading Nat := do
  return 2 * (← get).rest.length + 2

/-- Makes sure that nothing but blanks is left. -/
def readEnd : Reading PUnit := do
  match ← peekPart? with
  | none => return
  | some _ => failIn .trailingCharacters

end TypeLineage.Json
