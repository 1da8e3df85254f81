import SqlRender.Number.Double

/-!
# The shortest decimal text of a double

A finite double is written with the fewest digits that read back to it, in positional notation.

The reals that round to a double form an interval around it, and the ends belong to it if the
significand is even. On the grid of multiples of `10 ^ p` only the two neighbours of the double can
be the nearest points of the interval. `Double.shortest` therefore starts at a grid that is too
coarse and refines it by one digit at a time, until one of the two neighbours lies in the interval:

```text
      10 ^ p grid     t · 10 ^ p              (t + 1) · 10 ^ p
                          |        [    x    ]     |
      refined               |   |  [|  | x  ]  |
```

If both neighbours read back, the nearer is taken, and of two equally near ones the upper.
-/

namespace SqlRender

/-- A non-negative fraction of two natural numbers. -/
structure Ratio where
  num : Nat
  den : Nat
deriving DecidableEq, Repr

namespace Ratio

/-- The ratio `n · 2 ^ q`. -/
def binary (n : Nat) (q : Int) : Ratio :=
  if 0 ≤ q then ⟨n <<< q.toNat, 1⟩ else ⟨n, 1 <<< (-q).toNat⟩

/-- The ratio `n · 10 ^ p`. -/
def decimal (n : Nat) (p : Int) : Ratio :=
  if 0 ≤ p then ⟨n * Nat.pow 10 p.toNat, 1⟩ else ⟨n, Nat.pow 10 (-p).toNat⟩

def lt (a b : Ratio) : Bool := a.num * b.den < b.num * a.den

def le (a b : Ratio) : Bool := a.num * b.den ≤ b.num * a.den

/-- The distance of two ratios, `|a - b|`. -/
def dist (a b : Ratio) : Ratio :=
  ⟨(a.num * b.den - b.num * a.den) + (b.num * a.den - a.num * b.den), a.den * b.den⟩

/-- How often `10 ^ p` goes into a ratio. -/
def quotient (a : Ratio) (p : Int) : Nat :=
  if 0 ≤ p then a.num / (a.den * Nat.pow 10 p.toNat)
  else a.num * Nat.pow 10 (-p).toNat / a.den

end Ratio

namespace Double

/-- The value of a finite double without its sign. -/
def magnitude (x : Double) : Ratio := .binary x.significand x.scale

/-- Whether a ratio is rounded to the finite double `x` when it is read. The interval reaches half
way to the next double on each side; below a power of two the next double is half as far away. -/
def readsBack (x : Double) (r : Ratio) : Bool :=
  let low : Ratio :=
    if x.fraction = 0 ∧ 1 < x.exponent then .binary (4 * x.significand - 1) (x.scale - 2)
    else .binary (4 * x.significand - 2) (x.scale - 2)
  let high : Ratio := .binary (4 * x.significand + 2) (x.scale - 2)
  if x.significand % 2 = 0 then low.le r && r.le high else low.lt r && r.lt high

/-- The neighbour of `x` on the grid of multiples of `10 ^ p` that reads back to `x`; of two the
nearer, of two equally near ones the upper. -/
def onGrid? (x : Double) (p : Int) : Option Nat :=
  let t := x.magnitude.quotient p
  let below : Ratio := .decimal t p
  let above : Ratio := .decimal (t + 1) p
  match x.readsBack below, x.readsBack above with
  | true, true => some (if (above.dist x.magnitude).le (below.dist x.magnitude) then t + 1 else t)
  | true, false => some t
  | false, true => some (t + 1)
  | false, false => none

/-- The first point that reads back, on the grids `10 ^ p`, `10 ^ (p - 1)`, … in turn. -/
def firstOnGrid (x : Double) : Nat → Int → Nat × Int
  | 0, p => (x.magnitude.quotient p, p)
  | n + 1, p =>
    match x.onGrid? p with
    | some t => (t, p)
    | none => firstOnGrid x n (p - 1)

/-- Digits `d` and exponent `p` such that `d · 10 ^ p` is the shortest decimal of `x`. The search
starts above all digits of `x`; at `10 ^ -1074` every finite double lies on the grid. -/
def shortest (x : Double) : Nat × Int :=
  let top := (Nat.toDigits 10 (x.magnitude.quotient 0)).length
  x.firstOnGrid (top + 1075) top

end Double

/-- `d · 10 ^ p` in positional notation: all digits written out, and a point only before a
fraction. -/
def positional (d : Nat) (p : Int) : String :=
  let digits := Nat.toDigits 10 d
  if 0 ≤ p then String.ofList (digits ++ List.replicate p.toNat '0')
  else
    let places := (-p).toNat
    let padded := List.replicate (places + 1 - digits.length) '0' ++ digits
    let whole := padded.length - places
    String.ofList (padded.take whole ++ '.' :: padded.drop whole)

/-- The text of a double: `NaN`, `inf`, or the shortest digits in positional notation. A sign is
written for every negative number but a NaN, minus zero included. -/
def Double.text (x : Double) : String :=
  if x.isNaN then "NaN"
  else
    let body :=
      if !x.isFinite then "inf"
      else if x.isZero then "0"
      else positional x.shortest.1 x.shortest.2
    if x.negative then "-" ++ body else body

end SqlRender
