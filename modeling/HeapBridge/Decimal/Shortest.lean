/-!
# Shortest decimals

The fewest decimal digits that still denote a given binary fraction: among all decimals that
round to it, one on the coarsest decimal grid, and of two on that grid the nearer, or the upper if
both are as near. All arithmetic is exact.
-/
namespace HeapBridge.Decimal

/-- The positive number `mantissa` times two to the power `exponent`. The binary number above it
is one step of the last place away; `closeBelow` says that the one below is only half a step away,
as it is where the exponent changes. -/
structure Dyadic where
  mantissa : Nat
  exponent : Int
  closeBelow : Bool

/-- The natural number `digits` times ten to the power `exponent`. -/
structure Scaled where
  digits : Nat
  exponent : Int
deriving DecidableEq

namespace Dyadic

/-- Numerator and denominator of `k` quarters of the last place of `x`. -/
def quarters (x : Dyadic) (k : Nat) : Nat × Nat :=
  let e := x.exponent - 2
  if 0 ≤ e then (k * Nat.pow 2 e.toNat, 1) else (k, Nat.pow 2 (-e).toNat)

/-- Compares a decimal with a fraction. -/
def compareWith (d : Scaled) (num den : Nat) : Ordering :=
  if 0 ≤ d.exponent then compare (d.digits * Nat.pow 10 d.exponent.toNat * den) num
  else compare (d.digits * den) (num * Nat.pow 10 (-d.exponent).toNat)

/-- Whether a decimal rounds to `x`: it lies between the middles of the steps to the numbers below
and above. An end of the interval rounds to `x` if the mantissa is even. -/
def admits (x : Dyadic) (d : Scaled) : Bool :=
  let (lo, den) := x.quarters (4 * x.mantissa - if x.closeBelow then 1 else 2)
  let (hi, _) := x.quarters (4 * x.mantissa + 2)
  let closed := x.mantissa % 2 == 0
  match compareWith d lo den, compareWith d hi den with
  | .gt, .lt => true
  | .eq, _ | _, .eq => closed
  | _, _ => false

/-- The decimals on the grid of `10 ^ e` just below and above `x`. -/
def neighbours (x : Dyadic) (e : Int) : Scaled × Scaled :=
  let (num, den) := x.quarters (4 * x.mantissa)
  let below :=
    if 0 ≤ e then num / (den * Nat.pow 10 e.toNat) else num * Nat.pow 10 (-e).toNat / den
  (⟨below, e⟩, ⟨below + 1, e⟩)

/-- Whether `x` lies nearer to the lower of two neighbours on a grid. In the middle it does not. -/
def nearerBelow (x : Dyadic) (below : Scaled) : Bool :=
  let (num, den) := x.quarters (8 * x.mantissa)
  compareWith ⟨2 * below.digits + 1, below.exponent⟩ num den == .gt

/-- The decimal on one grid that rounds to `x`, if there is one. -/
def onGrid? (x : Dyadic) (e : Int) : Option Scaled :=
  let (below, above) := x.neighbours e
  match x.admits below, x.admits above with
  | true, true => some (if x.nearerBelow below then below else above)
  | true, false => some below
  | false, true => some above
  | false, false => none

/-- The shortest decimal of `x` with an exponent of at most `top`, on `fuel` grids. -/
def shortest? (x : Dyadic) : Nat → Int → Option Scaled
  | 0, _ => none
  | fuel + 1, top => (x.onGrid? top).orElse fun _ => x.shortest? fuel (top - 1)

end Dyadic

/-- A decimal written out in full, with a point only before a fraction. -/
def Scaled.positional (d : Scaled) : String :=
  let ds := Nat.toDigits 10 d.digits
  if 0 ≤ d.exponent then String.ofList (ds ++ List.replicate d.exponent.toNat '0')
  else
    let places := (-d.exponent).toNat
    let padded := List.replicate (places + 1 - ds.length) '0' ++ ds
    let whole := padded.length - places
    String.ofList (padded.take whole ++ '.' :: padded.drop whole)

/-- A number in the binary format of 32 bits. -/
structure Binary32 where
  bits : UInt32
deriving DecidableEq, Inhabited

namespace Binary32

/-- The exponent field: 0 for the least numbers, 255 for infinity and what is not a number. -/
def biased (x : Binary32) : Nat := (x.bits >>> 23 &&& 0xff).toNat

/-- The bits of the last places. -/
def fraction (x : Binary32) : Nat := (x.bits &&& 0x7fffff).toNat

/-- Whether the sign bit is set. -/
def negative (x : Binary32) : Bool := x.bits >>> 31 == 1

/-- The value of a finite number other than zero, without its sign. -/
def magnitude (x : Binary32) : Dyadic :=
  if x.biased = 0 then ⟨x.fraction, -149, false⟩
  else ⟨x.fraction + 0x800000, (x.biased : Int) - 150, x.fraction = 0 && 1 < x.biased⟩

/-- The number in the fewest digits that read back as it. -/
def text (x : Binary32) : String :=
  let sign := if x.negative then "-" else ""
  if x.biased = 0 && x.fraction = 0 then sign ++ "0"
  else if x.biased = 255 then (if x.fraction = 0 then sign ++ "inf" else "NaN")
  else match x.magnitude.shortest? 90 39 with
    | some d => sign ++ d.positional
    | none => ""

/-- One thousandth. -/
def thousandth : Binary32 := ⟨0x3a83126f⟩
/-- One half. -/
def half : Binary32 := ⟨0x3f000000⟩
/-- Nine tenths. -/
def nineTenths : Binary32 := ⟨0x3f666666⟩

end Binary32
end HeapBridge.Decimal
