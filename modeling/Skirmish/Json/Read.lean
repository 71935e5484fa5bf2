import Skirmish.Json.Lexeme
import Skirmish.Json.Value

/-!
# Reading JSON documents

`readValue` reads one value of any kind into a `Json`; objects come out sorted by key with the
last of repeated keys kept. `readHeld` reads the same way but keeps members in the order of the
text, repeats included, as a value held for a typed reading later must. Containers may nest `128` deep counted from the outside: a reader
about to enter one more fails with `recursion limit exceeded`. `skipValue` checks the syntax of
a value without building it and without a nesting limit, as a typed reader does for members it
has no use for. `Json.parse` reads a whole text: one value, then only whitespace.

Separators are checked in the same order everywhere: after an item, a `,` or the closing bracket;
a `,` directly before a closing bracket is a trailing comma; a member needs a string key and a
`:`. Every recursive call reads at least one byte before the next, so the fuel of `2 · bytes + 2`
given by `readValue` never runs out before the text does.
-/

namespace Skirmish.Json

open Reader

/-- The nesting depth a reader starts with. -/
def startDepth : Nat := 128

/-- A read number as a document. -/
def ParsedNumber.toJson : ParsedNumber → Json
  | .unsigned n => .number (.int n)
  | .negative n => .number (.int n)
  | .float x => .number (.double x)

/-- Before the next item of a list: `true` when there is one. -/
def nextItem (first : Bool) : Reader Bool := do
  match ← skipSpace with
  | none => failPeek .eofWhileParsingList
  | some 93 => pure false
  | some b =>
    if first then pure true
    else if b = 44 then
      bump
      match ← skipSpace with
      | some 93 => failPeek .trailingComma
      | some _ => pure true
      | none => failPeek .eofWhileParsingValue
    else failPeek .expectedListCommaOrEnd

/-- Before the next key of an object: `true` when there is one, the cursor then at its
opening quote. -/
def nextKey (first : Bool) : Reader Bool := do
  let peeked ← do
    match ← skipSpace with
    | some 125 => pure none
    | some 44 =>
      if first then pure (some (some 44))
      else
        bump
        pure (some (← skipSpace))
    | some b =>
      if first then pure (some (some b)) else failPeek .expectedObjectCommaOrEnd
    | none => failPeek .eofWhileParsingObject
  match peeked with
  | none => pure false
  | some (some 34) => pure true
  | some (some 125) => failPeek .trailingComma
  | some (some _) => failPeek .keyMustBeAString
  | some none => failPeek .eofWhileParsingValue

/-- The `:` between a key and its value. -/
def memberColon : Reader Unit := do
  match ← skipSpace with
  | some 58 => bump
  | some _ => failPeek .expectedColon
  | none => failPeek .eofWhileParsingObject

/-- The end of a list whose items have all been read. -/
def endList : Reader Unit := do
  match ← skipSpace with
  | some 93 => bump
  | some 44 =>
    bump
    match ← skipSpace with
    | some 93 => failPeek .trailingComma
    | _ => failPeek .trailingCharacters
  | some _ => failPeek .trailingCharacters
  | none => failPeek .eofWhileParsingList

/-- The end of an object whose members have all been read. -/
def endObject : Reader Unit := do
  match ← skipSpace with
  | some 125 => bump
  | some 44 => failPeek .trailingComma
  | some _ => failPeek .trailingCharacters
  | none => failPeek .eofWhileParsingObject

/-- Enters a container with `depth` levels left: fails when none would be left inside. -/
def enter (depth : Nat) : Reader Nat :=
  if depth ≤ 1 then failPeek .recursionLimitExceeded
  else do
    bump
    pure (depth - 1)

mutual

/-- Reads one value, with `depth` nesting levels left; `kept` keeps members in text order. -/
def valueWith (kept : Bool) (depth : Nat) : Nat → Reader Json
  | 0 => failAt .eofWhileParsingValue
  | fuel + 1 => do
    match ← skipSpace with
    | none => failPeek .eofWhileParsingValue
    | some 110 => bump; literal ull; pure .null
    | some 116 => bump; literal rue; pure (.bool true)
    | some 102 => bump; literal alse; pure (.bool false)
    | some 45 => bump; ParsedNumber.toJson <$> readNumber false
    | some 34 => bump; Json.string <$> readString
    | some 91 =>
      let inner ← enter depth
      let items ← itemsWith kept inner true [] fuel
      endList
      pure (.array items)
    | some 123 =>
      let inner ← enter depth
      let members ← membersWith kept inner true [] fuel
      endObject
      pure (.object members)
    | some b =>
      if isDigit b then ParsedNumber.toJson <$> readNumber true
      else failPeek .expectedSomeValue

/-- Reads the items of a list after `acc`. -/
def itemsWith (kept : Bool) (depth : Nat) (first : Bool) (acc : List Json) :
    Nat → Reader (List Json)
  | 0 => pure acc.reverse
  | fuel + 1 => do
    if ← nextItem first then
      let item ← valueWith kept depth fuel
      itemsWith kept depth false (item :: acc) fuel
    else pure acc.reverse

/-- Reads the members of an object into `acc`: sorted, or in reverse text order when `kept`. -/
def membersWith (kept : Bool) (depth : Nat) (first : Bool) (acc : List (String × Json)) :
    Nat → Reader (List (String × Json))
  | 0 => pure (if kept then acc.reverse else acc)
  | fuel + 1 => do
    if ← nextKey first then
      bump
      let key ← readString
      memberColon
      let value ← valueWith kept depth fuel
      membersWith kept depth false (if kept then (key, value) :: acc else insertSorted key value acc)
        fuel
    else pure (if kept then acc.reverse else acc)

end

/-- Reads one value. -/
def readValue (depth : Nat) : Reader Json := do
  valueWith false depth (2 * (← remaining) + 2)

/-- Reads one value, keeping the members of objects in text order. -/
def readHeld (depth : Nat) : Reader Json := do
  valueWith true depth (2 * (← remaining) + 2)

/-- An open container while skipping: a list or an object. -/
inductive Frame where
  | list
  | object
  deriving DecidableEq

/-- Skips the next value and the closing brackets and separators after it, `open` being the
containers around it, innermost first. After a closing bracket or a `,` the loop goes on with
the next value, or, inside an object, with the next key and its `:`. -/
def skipLoop : List Frame → Nat → Reader Unit
  | _, 0 => failAt .eofWhileParsingValue
  | frames, fuel + 1 => do
    -- One value; a container opens a frame and is left for the next round.
    let opened ← do
      match ← skipSpace with
      | none => failPeek .eofWhileParsingValue
      | some 110 => bump; literal ull; pure none
      | some 116 => bump; literal rue; pure none
      | some 102 => bump; literal alse; pure none
      | some 45 => bump; ignoreNumber; pure none
      | some 34 => bump; ignoreString; pure none
      | some 91 => bump; pure (some Frame.list)
      | some 123 => bump; pure (some Frame.object)
      | some b =>
        if isDigit b then ignoreNumber; pure none
        else failPeek .expectedSomeValue
    match opened with
    | some frame =>
      -- Just opened: it may close at once.
      match ← skipSpace with
      | some 93 =>
        if frame = .list then bump; closeFrames frames fuel
        else afterOpen frame frames fuel
      | some 125 =>
        if frame = .object then bump; closeFrames frames fuel
        else afterOpen frame frames fuel
      | some _ => afterOpen frame frames fuel
      | none =>
        failPeek (if frame = .list then .eofWhileParsingList else .eofWhileParsingObject)
    | none => closeFrames frames fuel
where
  /-- After a value inside `frames`: closes frames until a `,` leads to the next value. -/
  closeFrames : List Frame → Nat → Reader Unit
    | [], _ => pure ()
    | _, 0 => failAt .eofWhileParsingValue
    | frame :: outer, fuel + 1 => do
      match ← skipSpace with
      | some 44 =>
        bump
        afterOpen frame outer fuel
      | some 93 =>
        if frame = .list then bump; closeFrames outer fuel
        else failPeek .expectedObjectCommaOrEnd
      | some 125 =>
        if frame = .object then bump; closeFrames outer fuel
        else failPeek .expectedListCommaOrEnd
      | some _ =>
        failPeek (if frame = .list then .expectedListCommaOrEnd else .expectedObjectCommaOrEnd)
      | none =>
        failPeek (if frame = .list then .eofWhileParsingList else .eofWhileParsingObject)
  /-- Inside `frame`, at the start of an item: an object item starts with a key and a `:`. -/
  afterOpen : Frame → List Frame → Nat → Reader Unit
    | frame, outer, fuel => do
      if frame = .object then
        match ← skipSpace with
        | some 34 => bump
        | some _ => failPeek .keyMustBeAString
        | none => failPeek .eofWhileParsingObject
        ignoreString
        match ← skipSpace with
        | some 58 => bump
        | some _ => failPeek .expectedColon
        | none => failPeek .eofWhileParsingObject
      skipLoop (frame :: outer) fuel

/-- Skips one value, checking its syntax. -/
def skipValue : Reader Unit := do
  skipLoop [] (2 * (← remaining) + 2)

/-- After a whole value: only whitespace may follow. -/
def endOfText : Reader Unit := do
  match ← skipSpace with
  | some _ => failPeek .trailingCharacters
  | none => pure ()

/-- Reads a whole text as one document. -/
def parse (s : String) : Except ReadError Json :=
  Reader.run (do let j ← readValue startDepth; endOfText; pure j) (Cursor.ofString s)

end Skirmish.Json
