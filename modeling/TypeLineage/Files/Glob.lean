/-!
# Glob patterns

Patterns for relative paths. A star stands for any bytes within one name, a question mark for one
byte, brackets for one byte of a class, braces for one of several alternatives, and a backslash
takes the next character as it is. Two stars between slashes, or at an end, stand for any number of
whole names.

## The model

A pattern is read into parts, and alternatives are multiplied out, so that a pattern becomes a list
of sequences of parts of which one has to match. Paths and literal characters are compared as their
bytes in UTF-8.
-/

namespace TypeLineage.Files.Glob

/-- A part of a pattern. -/
inductive Part where
  /-- These bytes. -/
  | literal (bytes : List UInt8)
  /-- Any one byte within a name. -/
  | any
  /-- Any bytes within a name. -/
  | many
  /-- One byte inside, or else outside, one of the ranges. -/
  | oneOf (negated : Bool) (ranges : List (UInt8 × UInt8))
  /-- Any names at the start of the path, each with its slash, or a slash alone. -/
  | anyAtStart
  /-- A slash and anything behind it. -/
  | anyAtEnd
  /-- A slash, or a slash, anything, and a slash again. -/
  | anyBetween
  /-- Anything. -/
  | anything
  deriving DecidableEq, Repr

/-- A pattern: the sequences of parts of which one has to match. -/
abbrev Pattern := List (List Part)

/-- The bytes of a character. -/
def bytesOf (c : Char) : List UInt8 :=
  (String.singleton c).toUTF8.toList

/-- The byte of a slash. -/
def slash : UInt8 := 0x2F

/-! ### Matching -/

/-- Whether a test holds of a text or of what is left when some bytes from its front that pass
another test are dropped. -/
def dropSome (passes : UInt8 → Bool) (test : List UInt8 → Bool) : List UInt8 → Bool
  | [] => test []
  | b :: rest => test (b :: rest) || (passes b && dropSome passes test rest)

/-- Whether a test holds of what is left behind some slash of a text. -/
def behindSomeSlash (test : List UInt8 → Bool) : List UInt8 → Bool
  | [] => false
  | b :: rest => (b == slash && test rest) || behindSomeSlash test rest

/-- What is left of a text behind a given beginning. -/
def behind? : List UInt8 → List UInt8 → Option (List UInt8)
  | [], text => some text
  | _ :: _, [] => none
  | a :: start, b :: text => if a = b then behind? start text else none

/-- Whether parts match a whole text. -/
def matchParts : List Part → List UInt8 → Bool
  | [], text => text.isEmpty
  | .literal bytes :: parts, text =>
    match behind? bytes text with
    | some rest => matchParts parts rest
    | none => false
  | .any :: parts, text =>
    match text with
    | b :: rest => b != slash && matchParts parts rest
    | [] => false
  | .many :: parts, text => dropSome (· != slash) (matchParts parts) text
  | .oneOf negated ranges :: parts, text =>
    match text with
    | b :: rest =>
      (ranges.any (fun (low, high) => low ≤ b && b ≤ high) != negated) && matchParts parts rest
    | [] => false
  | .anyAtStart :: parts, text => matchParts parts text || behindSomeSlash (matchParts parts) text
  | .anyAtEnd :: parts, text =>
    match text with
    | b :: rest => b == slash && dropSome (fun _ => true) (matchParts parts) rest
    | [] => false
  | .anyBetween :: parts, text =>
    match text with
    | b :: rest =>
      b == slash && (matchParts parts rest || behindSomeSlash (matchParts parts) rest)
    | [] => false
  | .anything :: parts, text => dropSome (fun _ => true) (matchParts parts) text

/-- Whether a pattern matches a whole path. -/
def Pattern.matches (pattern : Pattern) (path : String) : Bool :=
  let bytes := path.toUTF8.toList
  pattern.any fun parts => matchParts parts bytes

/-! ### Reading -/

/-- The ranges of bytes that a range of characters stands for in a class; a character of several
bytes stands for each of them. -/
def byteRanges (low high : Char) : List (UInt8 × UInt8) :=
  let each (bytes : List UInt8) := bytes.map fun b => (b, b)
  if low = high then each (bytesOf low)
  else
    let lows := bytesOf low
    let highs := bytesOf high
    each lows.dropLast ++
      (lows.getLast?.toList.zip highs.head?.toList) ++ each highs.tail

/-- The rest of a class: its ranges and what stands behind it. `none` if the class is not closed,
and a range that goes backwards makes the whole pattern unreadable. -/
def readClass (first inRange : Bool) (ranges : List (Char × Char)) :
    List Char → Option (Except Unit (List (Char × Char) × List Char))
  | [] => none
  | ']' :: rest =>
    if first then readClass false inRange ((']', ']') :: ranges) rest
    else some (.ok ((if inRange then ('-', '-') :: ranges else ranges).reverse, rest))
  | c :: rest =>
    if c = '-' ∧ ¬ first ∧ ¬ inRange then readClass false true ranges rest
    else if inRange then
      match ranges with
      | (low, _) :: earlier =>
        if c < low then some (.error ()) else readClass false false ((low, c) :: earlier) rest
      | [] => some (.error ())
    else readClass false false ((c, c) :: ranges) rest

/-- A class behind its opening bracket. -/
def readClassStart (rest : List Char) :
    Option (Except Unit (Bool × List (Char × Char) × List Char)) :=
  match rest with
  | '!' :: rest => (readClass true false [] rest).map fun r => r.map fun (rs, t) => (true, rs, t)
  | '^' :: rest => (readClass true false [] rest).map fun r => r.map fun (rs, t) => (true, rs, t)
  | rest => (readClass true false [] rest).map fun r => r.map fun (rs, t) => (false, rs, t)

/-- What has been read of a pattern: for every open brace, and at last for the pattern as a whole,
the finished alternatives and the sequences, in reverse, that are being continued. -/
structure Reading where
  /-- The alternatives of open braces, the innermost first, with what stood before each brace. -/
  outer : List (Pattern × Pattern) := []
  /-- The sequences that are being continued, each in reverse. -/
  current : Pattern := [[]]
  /-- The character read last. -/
  last : Option Char := none
  /-- Whether a bracket that opens no class has been met. -/
  bracketMet : Bool := false

namespace Reading

/-- Continues with a part. -/
def push (reading : Reading) (part : Part) : Reading :=
  { reading with current := reading.current.map fun parts => part :: parts }

/-- Whether nothing has been read yet of the sequences being continued. -/
def atStart (reading : Reading) : Bool :=
  reading.current.all List.isEmpty

/-- Takes the last part back and puts another in its place, unless that one has to stay. -/
def replaceLast (reading : Reading) (part : Part) : Reading :=
  let change : List Part → List Part
    | [] => [part]
    | .anyAtStart :: parts => .anyAtStart :: parts
    | .anyAtEnd :: parts => .anyAtEnd :: parts
    | _ :: parts => part :: parts
  { reading with current := reading.current.map change }

/-- Opens a brace. -/
def openBrace (reading : Reading) : Reading :=
  { reading with outer := ([], reading.current) :: reading.outer, current := [[]] }

/-- Ends an alternative and begins another. -/
def nextAlternative (reading : Reading) : Reading :=
  match reading.outer with
  | [] => reading
  | (done, before) :: outer =>
    { reading with outer := (done ++ reading.current, before) :: outer, current := [[]] }

/-- Closes a brace: every alternative may follow what stood before it. -/
def closeBrace (reading : Reading) : Option Reading :=
  match reading.outer with
  | [] => none
  | (done, before) :: outer =>
    let alternatives := (done ++ reading.current).filter fun parts => !parts.isEmpty
    let current :=
      if alternatives.isEmpty then before
      else before.flatMap fun parts => alternatives.map fun alternative => alternative ++ parts
    some { reading with outer, current }

end Reading

/-- Whether two stars may stand for whole names behind the character read last. -/
def Reading.namesMayFollow (reading : Reading) : Bool :=
  reading.last = some '/' ∨
    (!reading.outer.isEmpty ∧ (reading.last = some ',' ∨ reading.last = some '{'))

/-- Whether two stars stand for whole names, with nothing behind them, in front of a text. -/
def Reading.namesMayEnd (reading : Reading) : List Char → Bool
  | [] => true
  | c :: _ => !reading.outer.isEmpty ∧ (c = ',' ∨ c = '}')

/-- Two stars, in front of the given rest. Where they stand for whole names, the slash behind them
is read too. -/
def readStars (reading : Reading) (rest : List Char) : Reading × List Char :=
  let starred := { reading with last := some '*' }
  let plain := (starred.push .many).push .many
  match rest with
  | '/' :: behind =>
    if reading.atStart then ({ starred.push .anyAtStart with last := some '/' }, behind)
    else if reading.namesMayFollow then
      ({ starred.replaceLast .anyBetween with last := some '/' }, behind)
    else (plain, rest)
  | rest =>
    if reading.atStart then
      if rest.isEmpty then (starred.push .anyAtStart, rest) else (plain, rest)
    else if reading.namesMayFollow && reading.namesMayEnd rest then
      (starred.replaceLast .anyAtEnd, rest)
    else (plain, rest)

/-- Reads the rest of a pattern, of at most so many characters. -/
def readRest : Nat → Reading → List Char → Option Pattern
  | _, reading, [] => if reading.outer.isEmpty then some reading.current else none
  | 0, _, _ :: _ => none
  | size + 1, reading, c :: rest =>
    let noted : Reading → Reading := fun reading => { reading with last := some c }
    match c, rest with
    | '?', rest => readRest size (noted (reading.push .any)) rest
    | '*', '*' :: rest =>
      let (reading, rest) := readStars reading rest
      readRest size reading rest
    | '*', rest => readRest size (noted (reading.push .many)) rest
    | '[', rest =>
      if reading.bracketMet then
        readRest size (noted (reading.push (.literal (bytesOf '[')))) rest
      else
        match readClassStart rest with
        | none =>
          let reading := { reading with bracketMet := true }
          readRest size (noted (reading.push (.literal (bytesOf '[')))) rest
        | some (.error _) => none
        | some (.ok (negated, ranges, behind)) =>
          let bytes := ranges.flatMap fun (low, high) => byteRanges low high
          readRest size { reading.push (.oneOf negated bytes) with last := some ']' } behind
    | '{', rest => readRest size (noted reading.openBrace) rest
    | '}', rest =>
      match reading.closeBrace with
      | some reading => readRest size (noted reading) rest
      | none => none
    | ',', rest =>
      if reading.outer.isEmpty then
        readRest size (noted (reading.push (.literal (bytesOf ',')))) rest
      else readRest size (noted reading.nextAlternative) rest
    | '\\', c :: rest =>
      readRest size { reading.push (.literal (bytesOf c)) with last := some c } rest
    | '\\', [] => none
    | c, rest => readRest size (noted (reading.push (.literal (bytesOf c)))) rest

/-- Reads a pattern; some texts are none. Two stars alone match every path. -/
def Pattern.ofString? (text : String) : Option Pattern :=
  let chars := text.toList
  (readRest chars.length {} chars).map fun pattern =>
    if pattern = [[.anyAtStart]] then [[.anything]] else pattern.map List.reverse

end TypeLineage.Files.Glob
