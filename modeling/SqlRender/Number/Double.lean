/-!
# Binary floating point numbers by their bits

A `Double` is the 64 bits of a binary64 number, a `Single` the 32 bits of a binary32 number. Every
finite double is `± significand · 2 ^ scale` with two integers, and nothing here needs more
arithmetic than that of integers.

```text
 63   62 … 52    51 … 0
sign  exponent  fraction
```
-/

namespace SqlRender

/-- A binary64 number, held by its bits. -/
structure Double where
  bits : UInt64
deriving DecidableEq, Repr, Inhabited

namespace Double

/-- Whether the sign bit is set. -/
def negative (x : Double) : Bool := x.bits.toNat >>> 63 == 1

/-- The eleven bits of the exponent. -/
def exponent (x : Double) : Nat := (x.bits.toNat >>> 52) % 0x800

/-- The fifty-two bits of the fraction. -/
def fraction (x : Double) : Nat := x.bits.toNat % 0x10000000000000

/-- The double with the given sign, exponent bits and fraction bits. -/
def ofFields (negative : Bool) (exponent fraction : Nat) : Double :=
  ⟨((if negative then 1 <<< 63 else 0) + (exponent <<< 52) + fraction).toUInt64⟩

/-- Neither infinite nor a NaN. -/
def isFinite (x : Double) : Bool := x.exponent != 2047

def isNaN (x : Double) : Bool := x.exponent == 2047 && x.fraction != 0

/-- One of the two zeros. -/
def isZero (x : Double) : Bool := x.exponent == 0 && x.fraction == 0

/-- The integer `m` of a finite double `± m · 2 ^ q`. -/
def significand (x : Double) : Nat :=
  if x.exponent = 0 then x.fraction else 0x10000000000000 + x.fraction

/-- The integer `q` of a finite double `± m · 2 ^ q`. -/
def scale (x : Double) : Int :=
  if x.exponent = 0 then -1074 else (x.exponent : Int) - 1075

/-- Equality of numbers: the two zeros are equal, and a NaN equals nothing, itself included. -/
def agrees (x y : Double) : Bool :=
  !x.isNaN && !y.isNaN && (x.bits == y.bits || (x.isZero && y.isZero))

/-- Two doubles are equal as numbers exactly if neither is a NaN and they have the same bits or are
both zeros. -/
theorem agrees_iff {x y : Double} :
    x.agrees y = true ↔
      x.isNaN = false ∧ y.isNaN = false ∧ (x = y ∨ (x.isZero = true ∧ y.isZero = true)) := by
  cases x; cases y; simp [agrees, and_assoc]

end Double

/-- A binary32 number, held by its bits. -/
structure Single where
  bits : UInt32
deriving DecidableEq, Repr, Inhabited

namespace Single

/-- Whether the sign bit is set. -/
def negative (x : Single) : Bool := x.bits.toNat >>> 31 == 1

/-- The eight bits of the exponent. -/
def exponent (x : Single) : Nat := (x.bits.toNat >>> 23) % 0x100

/-- The twenty-three bits of the fraction. -/
def fraction (x : Single) : Nat := x.bits.toNat % 0x800000

/-- The double of the same value. A number below the normal range of singles, `f · 2 ^ -149`, is
normal as a double: its leading bit, at place `Nat.log2 f`, moves into the exponent. -/
def toDouble (x : Single) : Double :=
  if x.exponent = 255 then .ofFields x.negative 2047 (x.fraction <<< 29)
  else if x.exponent ≠ 0 then .ofFields x.negative (x.exponent + 896) (x.fraction <<< 29)
  else if x.fraction = 0 then .ofFields x.negative 0 0
  else
    let lead := x.fraction.log2
    .ofFields x.negative (lead + 874) ((x.fraction - (1 <<< lead)) <<< (52 - lead))

end Single

end SqlRender
