import Skirmish.Json.Read
import Skirmish.Json.Write

/-!
# Reading a document back from its own text

A document's floats are written with the shortest digits that identify them, and a reader
then reads those digits back with `Skirmish.Decimal.approximate`. `Json.settle` gives the
document such a reader sees: every float replaced by the 64-bit float read from its text,
floats that are not finite by `null`, and everything else unchanged. Integers are written
exactly and read back exactly.
-/

namespace Skirmish.Json

/-- A number as read back from its text. -/
def settleNumber : JsonNumber → Json
  | .int n => .number (.int n)
  | n =>
    match parse (numberText n) with
    | .ok j => j
    | .error _ => .null

mutual

/-- A document as read back from its text. -/
def settle : Json → Json
  | .number n => settleNumber n
  | .array items => .array (settleItems items)
  | .object members => .object (settleMembers members)
  | j => j

/-- The items of an array, read back. -/
def settleItems : List Json → List Json
  | [] => []
  | j :: rest => settle j :: settleItems rest

/-- The members of an object, read back. -/
def settleMembers : List (String × Json) → List (String × Json)
  | [] => []
  | (k, v) :: rest => (k, settle v) :: settleMembers rest

end

end Skirmish.Json
