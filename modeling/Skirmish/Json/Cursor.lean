/-!
# Reading position and read errors

A `Cursor` is the unread rest of a JSON text (its UTF-8 bytes) with the position reached: the
line, counted from `1`, and the column, the number of bytes read since the last line feed. A
failure found in the text is reported at the cursor's position, or — for the failures that are
about the byte the reader is looking at — at the position just after that byte
(`Cursor.peekPosition`). A failure found by a type reading a value (a missing field, a number of
the wrong type) carries no position of its own; the reader gives it the position it has reached
when the failure passes through it (`Reader.placeAt`).

`Reader` is a state monad over the cursor that keeps the cursor on failure, so that the position
of a failure can be taken after some more of the text has been read.
-/

namespace Skirmish.Json

/-- The failures found in the text itself. -/
inductive SyntaxError where
  | eofWhileParsingList
  | eofWhileParsingObject
  | eofWhileParsingString
  | eofWhileParsingValue
  | expectedColon
  | expectedListCommaOrEnd
  | expectedObjectCommaOrEnd
  | expectedSomeIdent
  | expectedSomeValue
  | invalidEscape
  | invalidNumber
  | numberOutOfRange
  | invalidUnicodeCodePoint
  | controlCharacterWhileParsingString
  | keyMustBeAString
  | loneLeadingSurrogateInHexEscape
  | trailingComma
  | trailingCharacters
  | unexpectedEndOfHexEscape
  | recursionLimitExceeded
  deriving Repr, DecidableEq

/-- The text of a syntax failure. -/
def SyntaxError.message : SyntaxError → String
  | .eofWhileParsingList => "EOF while parsing a list"
  | .eofWhileParsingObject => "EOF while parsing an object"
  | .eofWhileParsingString => "EOF while parsing a string"
  | .eofWhileParsingValue => "EOF while parsing a value"
  | .expectedColon => "expected `:`"
  | .expectedListCommaOrEnd => "expected `,` or `]`"
  | .expectedObjectCommaOrEnd => "expected `,` or `\x7d`"
  | .expectedSomeIdent => "expected ident"
  | .expectedSomeValue => "expected value"
  | .invalidEscape => "invalid escape"
  | .invalidNumber => "invalid number"
  | .numberOutOfRange => "number out of range"
  | .invalidUnicodeCodePoint => "invalid unicode code point"
  | .controlCharacterWhileParsingString =>
    "control character (\\u0000-\\u001F) found while parsing a string"
  | .keyMustBeAString => "key must be a string"
  | .loneLeadingSurrogateInHexEscape => "lone leading surrogate in hex escape"
  | .trailingComma => "trailing comma"
  | .trailingCharacters => "trailing characters"
  | .unexpectedEndOfHexEscape => "unexpected end of hex escape"
  | .recursionLimitExceeded => "recursion limit exceeded"

/-- A line and a column. -/
structure Position where
  line : Nat
  column : Nat
  deriving Repr, DecidableEq

/-- A step into a compound value: the key of a member or the index of an item. -/
inductive PathStep where
  | key (name : String)
  | index (n : Nat)
  deriving Repr, DecidableEq

/-- A read failure: its text and, once known, where it was found; whether the text itself is
malformed, as against well-formed text that is not the value wanted; and the keys and indices of
the members it was found in, outermost first, for readers that track them. -/
structure ReadError where
  message : String
  position : Option Position
  malformed : Bool
  path : List PathStep
  deriving Repr, DecidableEq

/-- The text of a failure, followed by its position when it has one. -/
def ReadError.text (e : ReadError) : String :=
  match e.position with
  | some p => e.message ++ " at line " ++ toString p.line ++ " column " ++ toString p.column
  | none => e.message

/-- The text of a path: keys joined by `.`, each index in brackets after what it indexes. -/
def pathText (steps : List PathStep) : String :=
  (steps.foldl (fun (acc, sep) step =>
    match step with
    | .key k => (acc ++ sep ++ k, ".")
    | .index n => (acc ++ "[" ++ toString n ++ "]", ".")) ("", "")).1

/-- The text of a failure led by its path, when it was found inside a member or an item. -/
def ReadError.located (e : ReadError) : String :=
  if e.path.isEmpty then e.text else pathText e.path ++ ": " ++ e.text

/-- The unread bytes and the position reached. -/
structure Cursor where
  rest : List UInt8
  line : Nat
  column : Nat
  deriving Repr, DecidableEq

/-- The cursor at the start of `bytes`. -/
def Cursor.start (bytes : List UInt8) : Cursor := ⟨bytes, 1, 0⟩

/-- The cursor at the start of a text. -/
def Cursor.ofString (s : String) : Cursor := Cursor.start s.toUTF8.toList

/-- The position reached. -/
def Cursor.position (c : Cursor) : Position := ⟨c.line, c.column⟩

/-- The next byte, if any. -/
def Cursor.peek? (c : Cursor) : Option UInt8 := c.rest.head?

/-- The cursor past the next byte; a line feed starts a new line. -/
def Cursor.bump (c : Cursor) : Cursor :=
  match c.rest with
  | [] => c
  | b :: rest => if b = 10 then ⟨rest, c.line + 1, 0⟩ else ⟨rest, c.line, c.column + 1⟩

/-- The position just after the next byte, or the end position at the end. -/
def Cursor.peekPosition (c : Cursor) : Position := c.bump.position

/-- Whether `b` is JSON whitespace: space, tab, line feed or carriage return. -/
def isSpace (b : UInt8) : Bool := b = 32 || b = 9 || b = 10 || b = 13

/-- Skips whitespace in `rest`, starting at the given line and column. -/
def skipSpaceFrom : List UInt8 → Nat → Nat → Cursor
  | [], line, column => ⟨[], line, column⟩
  | b :: rest, line, column =>
    if b = 10 then skipSpaceFrom rest (line + 1) 0
    else if isSpace b then skipSpaceFrom rest line (column + 1)
    else ⟨b :: rest, line, column⟩

/-- The cursor past any whitespace. -/
def Cursor.skipSpace (c : Cursor) : Cursor := skipSpaceFrom c.rest c.line c.column

/-- Reading JSON text: a state monad over the cursor that keeps the cursor on failure. -/
abbrev Reader := EStateM ReadError Cursor

namespace Reader

/-- The next byte, not consumed. -/
def peek : Reader (Option UInt8) := fun c => .ok c.peek? c

/-- The next byte, not consumed, or `0` at the end. -/
def peekOrNull : Reader UInt8 := fun c => .ok (c.peek?.getD 0) c

/-- Consumes the next byte. -/
def bump : Reader Unit := fun c => .ok () c.bump

/-- Consumes and returns the next byte. -/
def next : Reader (Option UInt8) := fun c => .ok c.peek? c.bump

/-- Skips whitespace and returns the next byte, not consumed. -/
def skipSpace : Reader (Option UInt8) := fun c => .ok c.skipSpace.peek? c.skipSpace

/-- Fails with a syntax failure at the cursor's position. -/
def failAt {α : Type} (e : SyntaxError) : Reader α :=
  fun c => .error ⟨e.message, some c.position, true, []⟩ c

/-- Fails with a syntax failure at the position just after the next byte. -/
def failPeek {α : Type} (e : SyntaxError) : Reader α :=
  fun c => .error ⟨e.message, some c.peekPosition, true, []⟩ c

/-- Fails with a failure of the value read that has no position yet. -/
def failWith {α : Type} (message : String) : Reader α :=
  fun c => .error ⟨message, none, false, []⟩ c

/-- Fails with `e`, giving it the cursor's position if it has none. -/
def placeAt {α : Type} (e : ReadError) : Reader α :=
  fun c => .error (if e.position.isNone then { e with position := some c.position } else e) c

/-- Runs `r`; on failure gives the failure the position reached if it has none. -/
def placed {α : Type} (r : Reader α) : Reader α :=
  tryCatch r placeAt

/-- Runs `r`, which reads the value at `step`; a failure gets `step` in front of its path. -/
def tracked {α : Type} (step : PathStep) (r : Reader α) : Reader α :=
  tryCatch r fun e => throw { e with path := step :: e.path }

/-- Runs `r` and then `after` whatever `r` gave; the failure of `r` wins over that of
`after`, but the cursor is the one `after` leaves. -/
def thenAlways {α : Type} (r : Reader α) (after : Reader Unit) : Reader α :=
  fun c =>
    match r c with
    | .ok a c₁ =>
      match after c₁ with
      | .ok () c₂ => .ok a c₂
      | .error e c₂ => .error e c₂
    | .error e c₁ =>
      match after c₁ with
      | .ok () c₂ => .error e c₂
      | .error _ c₂ => .error e c₂

end Reader

/-- Runs a reader on a whole text. -/
def Reader.run {α : Type} (r : Reader α) (c : Cursor) : Except ReadError α :=
  match r c with
  | .ok a _ => .ok a
  | .error e _ => .error e

end Skirmish.Json
