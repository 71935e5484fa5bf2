/-!
# Checked machine integers

The simulation's counters are 32-bit: health and damage signed, scores and tallies unsigned.
Arithmetic that leaves the range of its type stops the computation with a `Panic` naming the
operation, instead of wrapping around.
-/

namespace Skirmish

/-- A computation stopped by an arithmetic overflow. -/
structure Panic where
  message : String
  deriving Repr, DecidableEq

/-- A computation that may stop with a panic. -/
abbrev Checked := Except Panic

/-- The least 32-bit signed integer. -/
def i32Min : Int := -Int.pow 2 31

/-- The greatest 32-bit signed integer. -/
def i32Max : Int := Int.pow 2 31 - 1

/-- The greatest 32-bit unsigned integer. -/
def u32Max : Nat := Nat.pow 2 32 - 1

/-- `a - b` on 32-bit signed integers. -/
def subI32 (a b : Int) : Checked Int :=
  if i32Min ≤ a - b ∧ a - b ≤ i32Max then pure (a - b)
  else throw ⟨"attempt to subtract with overflow"⟩

/-- `a + b` on 32-bit unsigned integers. -/
def addU32 (a b : Nat) : Checked Nat :=
  if a + b ≤ u32Max then pure (a + b) else throw ⟨"attempt to add with overflow"⟩

end Skirmish
