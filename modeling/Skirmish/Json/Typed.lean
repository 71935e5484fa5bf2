import Skirmish.Json.Read
import Skirmish.Decimal.Text
import Skirmish.Binary.Convert

/-!
# Reading typed values

A typed reader reads a JSON text as a value of a known shape and fails with a diagnosis of what
it found against what it expected: ``invalid type: string "60", expected f32``, ``missing field
`x` ``, ``unknown variant `warp`, expected one of …``. The failures a typed reader makes itself
carry no position. The reading of the enclosing value places them (`Reader.placed`) where it
stops: after the scalar that did not fit, or after the closing bracket of a container when that
bracket comes next.

A value is read from a `Source`: the text at the cursor, with the nesting depth left, or a value
`held` from an earlier reading, such as a member read before the reader knew its shape. A held
value moves no cursor, and its failures stay without position until the text reading around it
places them.

`visit` reads the compound shapes for a `Visitor`, which says what it accepts: `null`, an object
read member by member (`Entries`), a list read item by item (`Items`). Any other value fails with
`invalid type`, found after the value is read. Whether or not the visitor fails, the text's
closing bracket is then checked, and the visitor's failure wins. `readStruct` is the member loop
of a record: known fields are read once, and a repeat fails with `duplicate field`. Unknown keys
are skipped. After the last member, the first required field not read fails with `missing field`.

A failure inside a member's value, an item or a variant's value records where it was found: the
key or index is put in front of its path as it leaves that value (`Reader.tracked`). A failure
between members, such as a missing `:`, stays at the path of the container.

Every loop runs on fuel of one more than the bytes left, or than the members left of a held
value. Each round reads at least one byte or one member, so the fuel always lasts.
-/

namespace Skirmish.Typed

open Json Reader

/-! ## Diagnoses -/

/-- What a typed reader found instead of what it expected. -/
inductive Unexpected where
  | unit
  | bool (b : Bool)
  | unsigned (n : Nat)
  | signed (n : Int)
  | float (x : Float)
  | str (s : String)
  | seq
  | map

/-- Whether a character is written as a code in a quoted diagnostic: control characters,
invisible format characters and combining marks. -/
def needsCode (c : Char) : Bool :=
  let n := c.toNat
  n < 32 || (127 ≤ n && n < 160) || n = 0xAD || (0x300 ≤ n && n < 0x370) ||
    (0x200B ≤ n && n < 0x2010) || (0x2028 ≤ n && n < 0x202F) || (0x2060 ≤ n && n < 0x2065) ||
    n = 0xFEFF || (0xFFF9 ≤ n && n < 0xFFFC)

/-- The lower-case hex digits of `n`, at least one. -/
def hexText (n : Nat) : String := String.ofList (Nat.toDigits 16 n)

/-- A character inside a quoted diagnostic. -/
def quotedChar (c : Char) : String :=
  match c with
  | '\x00' => "\\0"
  | '\t' => "\\t"
  | '\r' => "\\r"
  | '\n' => "\\n"
  | '\\' => "\\\\"
  | '"' => "\\\""
  | c => if needsCode c then "\\u\x7b" ++ hexText c.toNat ++ "\x7d" else c.toString

/-- A string quoted in a diagnostic. -/
def quoted (s : String) : String := "\"" ++ String.join (s.toList.map quotedChar) ++ "\""

/-- A float in a diagnostic: its shortest digits, with an explicit exponent sign. -/
def floatText (x : Float) : String :=
  match x.shortestText? Decimal.Notation.quoted with
  | some s => s
  | none => if x.isNaN then "NaN" else if x < 0 then "-inf" else "inf"

/-- What was found, in a diagnosis. -/
def Unexpected.text : Unexpected → String
  | .unit => "null"
  | .bool b => "boolean `" ++ toString b ++ "`"
  | .unsigned n => "integer `" ++ toString n ++ "`"
  | .signed n => "integer `" ++ toString n ++ "`"
  | .float x => "floating point `" ++ floatText x ++ "`"
  | .str s => "string " ++ quoted s
  | .seq => "sequence"
  | .map => "map"

/-- A failure without a position yet. -/
def loose (message : String) : ReadError := ⟨message, none, false, []⟩

/-- A value of the wrong kind. -/
def invalidType (u : Unexpected) (expected : String) : ReadError :=
  loose ("invalid type: " ++ u.text ++ ", expected " ++ expected)

/-- A value of the right kind but out of range. -/
def invalidValue (u : Unexpected) (expected : String) : ReadError :=
  loose ("invalid value: " ++ u.text ++ ", expected " ++ expected)

/-- A list or record with the wrong number of items. -/
def invalidLength (n : Nat) (expected : String) : ReadError :=
  loose ("invalid length " ++ toString n ++ ", expected " ++ expected)

/-- A required field that never came. -/
def missingField (name : String) : ReadError := loose ("missing field `" ++ name ++ "`")

/-- A field that came twice. -/
def duplicateField (name : String) : ReadError := loose ("duplicate field `" ++ name ++ "`")

/-- The names a choice allows, as a diagnosis lists them. -/
def oneOf (names : List String) : String :=
  let ticked := names.map fun n => "`" ++ n ++ "`"
  match ticked with
  | [] => "nothing"
  | [a] => a
  | [a, b] => a ++ " or " ++ b
  | _ => "one of " ++ ", ".intercalate ticked

/-- A name that is none of the allowed ones. -/
def unknownVariant (name : String) (names : List String) : ReadError :=
  loose ("unknown variant `" ++ name ++ "`, expected " ++ oneOf names)

/-- The count of items a held list was read to, in a diagnosis. -/
def inSequence (n : Nat) : String :=
  if n = 1 then "1 element in sequence" else toString n ++ " elements in sequence"

/-- What a number read from the text is, in a diagnosis. -/
def numberFound : ParsedNumber → Unexpected
  | .unsigned n => .unsigned n
  | .negative n => .signed n
  | .float x => .float x

/-- A held number as read from the text: non-negative integers are unsigned. -/
def parsedOf : JsonNumber → ParsedNumber
  | .int n => if 0 ≤ n then .unsigned n.toNat else .negative n
  | .double x => .float x
  | .single x => .float x.toDouble

/-- What a held value is, in a diagnosis. -/
def unexpected : Json → Unexpected
  | .null => .unit
  | .bool b => .bool b
  | .number n => numberFound (parsedOf n)
  | .string s => .str s
  | .array _ => .seq
  | .object _ => .map

/-- Fails with `invalid type` for the value at the cursor, read past first; a byte that starts
no value fails with `expected value`. -/
def peekInvalid {α : Type} (expected : String) : Reader α := do
  let found ← do
    match ← peekOrNull with
    | 110 => bump; literal ull; pure Unexpected.unit
    | 116 => bump; literal rue; pure (Unexpected.bool true)
    | 102 => bump; literal alse; pure (Unexpected.bool false)
    | 45 => bump; pure (numberFound (← readNumber false))
    | 34 => bump; pure (Unexpected.str (← readString))
    | 91 => pure Unexpected.seq
    | 123 => pure Unexpected.map
    | b => if isDigit b then pure (numberFound (← readNumber true)) else failPeek .expectedSomeValue
  placeAt (invalidType found expected)

/-! ## Sources, members and items -/

/-- Where a typed value is read from. -/
inductive Source where
  /-- The text at the cursor, with `depth` nesting levels left. -/
  | text (depth : Nat)
  /-- A value read before. -/
  | held (value : Json)

/-- The members of an object being read. -/
inductive Entries where
  /-- Members of the text; `first` until one has been read. -/
  | text (depth : Nat) (first : Bool)
  /-- The members of a held object not read yet. -/
  | held (rest : List (String × Json))

/-- The next key; its value is found with `Entries.value` next. -/
def Entries.key : Entries → Reader (Option (String × Entries))
  | .text depth first => do
    if ← nextKey first then
      bump
      let k ← readString
      pure (some (k, .text depth false))
    else pure none
  | .held [] => pure none
  | .held ((k, v) :: rest) => pure (some (k, .held ((k, v) :: rest)))

/-- The value of the key just read: past the `:` in the text, or the held value. -/
def Entries.value : Entries → Reader (Source × Entries)
  | .text depth first => do
    memberColon
    pure (.text depth, .text depth first)
  | .held [] => pure (.held .null, .held [])
  | .held ((_, v) :: rest) => pure (.held v, .held rest)

/-- More rounds than members left. -/
def Entries.fuel : Entries → Reader Nat
  | .text .. => do pure ((← remaining) + 1)
  | .held rest => pure (rest.length + 1)

/-- The items of a list being read. -/
inductive Items where
  /-- Items of the text, after `taken` read ones. -/
  | text (depth : Nat) (taken : Nat)
  /-- The items of a held list not read yet, after `taken` read ones. -/
  | held (taken : Nat) (rest : List Json)

/-- The next item, if any. -/
def Items.next : Items → Reader (Option (Source × Items))
  | .text depth n => do
    if ← nextItem (n == 0) then pure (some (.text depth, .text depth (n + 1))) else pure none
  | .held _ [] => pure none
  | .held n (v :: rest) => pure (some (.held v, .held (n + 1) rest))

/-- The number of items read so far. -/
def Items.taken : Items → Nat
  | .text _ n => n
  | .held n _ => n

/-- Reads the next item with `read`, if there is one; a failure in it is at its index. -/
def Items.read? {α : Type} (items : Items) (read : Source → Reader α) :
    Reader (Option α × Items) := do
  match ← items.next with
  | some (src, rest) => pure (some (← tracked (.index items.taken) (read src)), rest)
  | none => pure (none, items)

/-- After the items a visitor wanted: a held list must have no more. -/
def Items.finish : Items → Reader Unit
  | .held _ [] => pure ()
  | .held n rest => throw (invalidLength (n + rest.length) (inSequence n))
  | .text .. => pure ()

/-! ## Compound values -/

/-- What a typed reader of a compound value accepts. -/
structure Visitor (α : Type) where
  /-- What the reader expects, as its failures name it. -/
  expecting : String
  /-- The value `null` stands for, when `null` is accepted. -/
  unit : Option α
  /-- How an object is read, when objects are accepted. -/
  map : Option (Entries → Reader α)
  /-- How a list is read, when lists are accepted; it gives back the items it left. -/
  seq : Option (Items → Reader (α × Items))

/-- Reads a value with a visitor. -/
def visit {α : Type} (v : Visitor α) : Source → Reader α
  | .text depth => placed do
    match ← skipSpace with
    | none => failPeek .eofWhileParsingValue
    | some 91 =>
      let inner ← enter depth
      thenAlways
        (match v.seq with
          | some read => Prod.fst <$> read (.text inner 0)
          | none => throw (invalidType .seq v.expecting))
        endList
    | some 123 =>
      let inner ← enter depth
      thenAlways
        (match v.map with
          | some read => read (.text inner true)
          | none => throw (invalidType .map v.expecting))
        endObject
    | some 110 =>
      match v.unit with
      | some a => do bump; literal ull; pure a
      | none => peekInvalid v.expecting
    | some _ => peekInvalid v.expecting
  | .held j =>
    match j, v.unit, v.map, v.seq with
    | .null, some a, _, _ => pure a
    | .object ms, _, some read, _ => read (.held ms)
    | .array items, _, _, some read => do
      let (a, rest) ← read (.held 0 items)
      rest.finish
      pure a
    | j, _, _, _ => throw (invalidType (unexpected j) v.expecting)

/-- Skips a value nobody reads. -/
def ignore : Source → Reader Unit
  | .text _ => skipValue
  | .held _ => pure ()

/-- Reads a value whole, to be read by its shape later. -/
def hold : Source → Reader Json
  | .text depth => readHeld depth
  | .held j => pure j

/-- One field of a record: its name and how its value goes into the partial record. -/
structure RecordField (σ : Type) where
  name : String
  read : Source → σ → Reader σ

/-- Reads members into the partial record `r`, `seen` naming the fields read so far. A failure
inside a member's value is at the member's key. -/
def readFields {σ : Type} (fields : List (RecordField σ)) :
    σ → List String → Entries → Nat → Reader (σ × List String)
  | r, seen, _, 0 => pure (r, seen)
  | r, seen, e, fuel + 1 => do
    match ← e.key with
    | none => pure (r, seen)
    | some (k, e) =>
      match fields.find? (·.name == k) with
      | some f =>
        if seen.contains k then throw (duplicateField k)
        else
          let (src, e) ← e.value
          let r ← tracked (.key k) (f.read src r)
          readFields fields r (k :: seen) e fuel
      | none =>
        let (src, e) ← e.value
        tracked (.key k) (ignore src)
        readFields fields r seen e fuel

/-- Reads a record's members, starting from `init`; the fields of `required` must all come. -/
def readStruct {σ : Type} (fields : List (RecordField σ)) (init : σ) (required : List String)
    (e : Entries) : Reader σ := do
  let (r, seen) ← readFields fields init [] e (← e.fuel)
  match required.find? (!seen.contains ·) with
  | some name => throw (missingField name)
  | none => pure r

/-! ## Scalars -/

/-- Reads a number and hands it to `accept`, whose failure is placed after the number. -/
def number {α : Type} (expected : String) (accept : ParsedNumber → Except ReadError α) :
    Source → Reader α
  | .text _ => placed do
    match ← skipSpace with
    | none => failPeek .eofWhileParsingValue
    | some 45 => bump; MonadExcept.ofExcept (accept (← readNumber false))
    | some b =>
      if isDigit b then MonadExcept.ofExcept (accept (← readNumber true)) else peekInvalid expected
  | .held (.number n) => MonadExcept.ofExcept (accept (parsedOf n))
  | .held j => throw (invalidType (unexpected j) expected)

/-- An unsigned integer up to `bound`, named `expected` in diagnoses. -/
def unsignedUpTo (bound : Nat) (expected : String) : ParsedNumber → Except ReadError Nat
  | .unsigned n => if n ≤ bound then .ok n else .error (invalidValue (.unsigned n) expected)
  | .negative n => .error (invalidValue (.signed n) expected)
  | .float x => .error (invalidType (.float x) expected)

/-- A number rounded to a 32-bit float; integers are rounded directly. -/
def roundSingle : ParsedNumber → Float32
  | .unsigned n => Float32.ofDyadic false n 0
  | .negative n => Float32.ofDyadic true n.natAbs 0
  | .float x => x.toSingle

/-- Reads a 32-bit unsigned integer. -/
def u32 : Source → Reader Nat := number "u32" (unsignedUpTo (Nat.pow 2 32 - 1) "u32")

/-- Reads a 64-bit unsigned integer. -/
def u64 : Source → Reader Nat := number "u64" (unsignedUpTo (Nat.pow 2 64 - 1) "u64")

/-- Reads a size. -/
def usize : Source → Reader Nat := number "usize" (unsignedUpTo (Nat.pow 2 64 - 1) "usize")

/-- Reads a 32-bit float: any number, rounded. -/
def f32 : Source → Reader Float32 := number "f32" fun n => .ok (roundSingle n)

/-- Reads `true` or `false`. -/
def boolean : Source → Reader Bool
  | .text _ => placed do
    match ← skipSpace with
    | none => failPeek .eofWhileParsingValue
    | some 116 => bump; literal rue; pure true
    | some 102 => bump; literal alse; pure false
    | some _ => peekInvalid "a boolean"
  | .held (.bool b) => pure b
  | .held j => throw (invalidType (unexpected j) "a boolean")

/-- Reads a string and hands it to `accept`, whose failure is placed after the string. -/
def stringWith {α : Type} (expected : String) (accept : String → Except ReadError α) :
    Source → Reader α
  | .text _ => placed do
    match ← skipSpace with
    | none => failPeek .eofWhileParsingValue
    | some 34 => bump; MonadExcept.ofExcept (accept (← readString))
    | some _ => peekInvalid expected
  | .held (.string s) => MonadExcept.ofExcept (accept s)
  | .held j => throw (invalidType (unexpected j) expected)

/-- Reads a string. -/
def string : Source → Reader String := stringWith "a string" .ok

/-- Reads `null` as `none`, anything else with `read`. -/
def option {α : Type} (read : Source → Reader α) : Source → Reader (Option α)
  | .text depth => do
    match ← skipSpace with
    | some 110 => bump; literal ull; pure none
    | _ => some <$> read (.text depth)
  | .held .null => pure none
  | .held j => some <$> read (.held j)

/-- The first of `all` that bears the name `s`. -/
def variantOf {α : Type} (all : List α) (name : α → String) (s : String) : Except ReadError α :=
  match all.find? (name · == s) with
  | some a => .ok a
  | none => .error (unknownVariant s (all.map name))

/-- Reads the name of one of `all`. -/
def variantName {α : Type} (all : List α) (name : α → String) : Source → Reader α :=
  stringWith "variant identifier" (variantOf all name)

/-- Reads `null`, the value of a variant without data. -/
def unitValue : Source → Reader Unit
  | .text _ => placed do
    match ← skipSpace with
    | none => failPeek .eofWhileParsingValue
    | some 110 => bump; literal ull
    | some _ => peekInvalid "unit"
  | .held .null => pure ()
  | .held j => throw (invalidType (unexpected j) "unit")

/-- Reads one of `all`, variants without data: its name, or an object whose one key is the name
and whose value is `null`. -/
def unitVariant {α : Type} (all : List α) (name : α → String) : Source → Reader α
  | .text depth => do
    match ← skipSpace with
    | some 123 =>
      let inner ← enter depth
      let a ← variantName all name (.text inner)
      memberColon
      tracked (.key (name a)) (unitValue (.text inner))
      match ← skipSpace with
      | some 125 => bump; pure a
      | some _ => failAt .expectedSomeValue
      | none => failAt .eofWhileParsingObject
    | some 34 => variantName all name (.text depth)
    | some _ => failPeek .expectedSomeValue
    | none => failPeek .eofWhileParsingValue
  | .held (.object [(k, v)]) => do
    let a ← variantName all name (.held (.string k))
    unitValue (.held v)
    pure a
  | .held (.object _) => throw (invalidValue .map "map with a single key")
  | .held (.string s) => variantName all name (.held (.string s))
  | .held j => throw (invalidType (unexpected j) "string or map")

/-- Reads a whole text with `read`: one value, then only whitespace. -/
def readWhole {α : Type} (read : Source → Reader α) (text : String) : Except ReadError α :=
  Reader.run (do let a ← read (.text startDepth); endOfText; pure a) (Cursor.ofString text)

end Skirmish.Typed
