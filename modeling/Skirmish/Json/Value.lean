/-!
# JSON values

`Json` is a JSON document as the library builds and reads it. Numbers keep the kind of machine
number they came from, because that kind decides how they are written: an integer is written
exactly, a 64-bit float read from text with the shortest digits of a 64-bit float, and a 32-bit
float computed by the simulation with the shortest digits of a 32-bit float. Objects are lists of
members; a document read from text has its members sorted by key with one member per key.
-/

namespace Skirmish

/-- A JSON number, with the machine number it was made from. -/
inductive JsonNumber where
  /-- An integer, written in decimal. -/
  | int (value : Int)
  /-- A 64-bit float. -/
  | double (value : Float)
  /-- A 32-bit float. -/
  | single (value : Float32)

/-- A JSON document. -/
inductive Json where
  | null
  | bool (value : Bool)
  | number (value : JsonNumber)
  | string (value : String)
  | array (items : List Json)
  | object (members : List (String × Json))

namespace Json

instance : Inhabited Json := ⟨.null⟩

/-- The integer `n`. -/
def int (n : Int) : Json := .number (.int n)

/-- The natural number `n`. -/
def nat (n : Nat) : Json := .number (.int n)

/-- The 32-bit float `x`. -/
def single (x : Float32) : Json := .number (.single x)

/-- `some v` as `v` and `none` as `null`. -/
def optional {α : Type} (f : α → Json) : Option α → Json
  | some a => f a
  | none => .null

/-- The member of an object named `key`, the last one when several are. -/
def field? (j : Json) (key : String) : Option Json :=
  match j with
  | .object members => (members.reverse.find? (·.1 == key)).map (·.2)
  | _ => none

/-- The member named `key`, with a missing member and `null` both read as absent. -/
def given? (j : Json) (key : String) : Option Json :=
  match j.field? key with
  | some .null => none
  | other => other

/-- The string a document holds, if it is one. -/
def asString? : Json → Option String
  | .string s => some s
  | _ => none

/-- The boolean a document holds, if it is one. -/
def asBool? : Json → Option Bool
  | .bool b => some b
  | _ => none

/-- The items of an array. -/
def asArray? : Json → Option (List Json)
  | .array items => some items
  | _ => none

/-- The members of an object. -/
def asObject? : Json → Option (List (String × Json))
  | .object members => some members
  | _ => none

/-- The integer a document holds, if it holds an integer. -/
def asInt? : Json → Option Int
  | .number (.int n) => some n
  | _ => none

/-- Inserts a member into an object sorted by key, replacing a member of the same key: how a
reader keeps the last of repeated keys. -/
def insertSorted (key : String) (value : Json) :
    List (String × Json) → List (String × Json)
  | [] => [(key, value)]
  | (k, v) :: rest =>
    if key = k then (key, value) :: rest
    else if key < k then (key, value) :: (k, v) :: rest
    else (k, v) :: insertSorted key value rest

end Json

end Skirmish
