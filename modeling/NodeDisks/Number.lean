/-!
## Binary64 numbers

Finite binary64 numbers as exact integers: a magnitude is `mantissa * 2 ^ exponent`, and every
operation rounds the exact quotient or product to the nearest magnitude, ties to an even mantissa.

`ofDecimal?` reads a decimal significand and exponent in two rounded steps: the significand is
rounded first, and then one multiplication or division by a rounded power of ten follows for every
308 places. This fixes which of two neighbouring numbers a long decimal stands for.
-/

namespace NodeDisks

/-- A finite magnitude. Normal ones have `2 ^ 52 ≤ mantissa`; the others have the least exponent,
`-1074`. -/
structure Magnitude where
  mantissa : Nat
  exponent : Int
  deriving DecidableEq, Repr, Inhabited

namespace Magnitude

def leastExponent : Int := -1074
def greatestExponent : Int := 971

def zero : Magnitude := ⟨0, leastExponent⟩

/-- The quotient of `num / den` by the unit `2 ^ e`, as a fraction of natural numbers. -/
def inUnits (num den : Nat) (e : Int) : Nat × Nat :=
  if 0 ≤ e then (num, den * Nat.pow 2 e.toNat) else (num * Nat.pow 2 (-e).toNat, den)

/-- The natural number nearest to `num / den`, ties to even. -/
def nearestEven (num den : Nat) : Nat :=
  let q := num / den
  let r := num % den
  if den < 2 * r || (2 * r == den && q % 2 == 1) then q + 1 else q

/-- The unit that gives `num / den` a mantissa of 53 bits, or the least unit there is. -/
def unitFor (num den : Nat) : Int :=
  let guess : Int := (Nat.log2 num : Int) - Nat.log2 den - 52
  let (a, b) := inUnits num den guess
  max leastExponent (if a / b < Nat.pow 2 52 then guess - 1 else guess)

/-- The magnitude nearest to `num / den`; `none` when it is above the greatest one. -/
def ofRatio? (num den : Nat) : Option Magnitude :=
  if num = 0 then some zero
  else
    let e := unitFor num den
    let (a, b) := inUnits num den e
    let m := nearestEven a b
    let rounded : Magnitude := if m = Nat.pow 2 53 then ⟨Nat.pow 2 52, e + 1⟩ else ⟨m, e⟩
    if greatestExponent < rounded.exponent then none else some rounded

/-- Numerator and denominator of a magnitude. -/
def ratio (x : Magnitude) : Nat × Nat :=
  if 0 ≤ x.exponent then (x.mantissa * Nat.pow 2 x.exponent.toNat, 1)
  else (x.mantissa, Nat.pow 2 (-x.exponent).toNat)

def mul? (x y : Magnitude) : Option Magnitude :=
  ofRatio? (x.ratio.1 * y.ratio.1) (x.ratio.2 * y.ratio.2)

def div? (x y : Magnitude) : Option Magnitude :=
  ofRatio? (x.ratio.1 * y.ratio.2) (x.ratio.2 * y.ratio.1)

def le (x y : Magnitude) : Bool := x.ratio.1 * y.ratio.2 ≤ y.ratio.1 * x.ratio.2

/-- The whole part. -/
def floor (x : Magnitude) : Nat := x.ratio.1 / x.ratio.2

/-- The magnitude nearest to `10 ^ k`. -/
def powerOfTen? (k : Nat) : Option Magnitude :=
  ofRatio? (Nat.pow 10 k) 1

/-- The places that one rounded step can cover. -/
def placesPerStep : Nat := 308

/-- Moves the decimal point of `x` by `exponent` places, at most `steps` whole strides down before
the last one. -/
def shift? : (steps : Nat) → Magnitude → (exponent : Int) → Option Magnitude
  | steps, x, exponent =>
    if exponent.natAbs ≤ placesPerStep then do
      let power ← powerOfTen? exponent.natAbs
      if 0 ≤ exponent then x.mul? power else x.div? power
    else if x.mantissa = 0 then some zero
    else if 0 ≤ exponent then none
    else match steps with
      | 0 => some zero
      | steps + 1 => do
        let power ← powerOfTen? placesPerStep
        let y ← x.div? power
        shift? steps y (exponent + placesPerStep)

/-- The magnitude that `significand * 10 ^ exponent` stands for; `none` when it is too large. Three
strides down bring every significand of 64 bits to zero. -/
def ofDecimal? (significand : Nat) (exponent : Int) : Option Magnitude := do
  shift? 3 (← ofRatio? significand 1) exponent

end Magnitude

/-- A finite binary64 number; zero has two signs. -/
structure Binary64 where
  negative : Bool
  magnitude : Magnitude
  deriving DecidableEq, Repr, Inhabited

end NodeDisks

/-!
## Shortest decimals

The shortest decimal that reads back as a given magnitude, and its written form.

A decimal with `n` digits reads back when it lies between the two midpoints to the neighbouring
magnitudes (the midpoints count when the mantissa is even). If any such decimal exists then so does
one that is next to the exact value, so `shortest` tries only those two for `n = 1, 2, …, 17`.
-/

namespace NodeDisks.Magnitude

/-- The decimal `digits * 10 ^ scale`. -/
structure Decimal where
  digits : Nat
  scale : Int
  deriving DecidableEq, Repr

/-- A magnitude and the two midpoints around it, as numerators over a common denominator. -/
structure Neighbourhood where
  low : Nat
  value : Nat
  high : Nat
  den : Nat
  closed : Bool

def neighbourhood (x : Magnitude) : Neighbourhood :=
  let unit := Nat.pow 2 x.exponent.toNat
  let below := if x.mantissa = Nat.pow 2 52 && leastExponent < x.exponent then unit else 2 * unit
  { low := 4 * x.mantissa * unit - below
    value := 4 * x.mantissa * unit
    high := 4 * x.mantissa * unit + 2 * unit
    den := 4 * Nat.pow 2 (-x.exponent).toNat
    closed := x.mantissa % 2 == 0 }

/-- The exponent of the leading decimal digit of `num / den`, which is positive. -/
def leadingPlace (num den : Nat) : Int :=
  if den ≤ num then ((Nat.toDigits 10 (num / den)).length : Int) - 1
  else
    let places := (Nat.toDigits 10 (den / num)).length
    if den ≤ num * Nat.pow 10 (places - 1) then -((places : Int) - 1) else -(places : Int)

/-- The quotient of `num / den` by `10 ^ scale`, as a fraction. -/
def inPlaces (num den : Nat) (scale : Int) : Nat × Nat :=
  if 0 ≤ scale then (num, den * Nat.pow 10 scale.toNat) else (num * Nat.pow 10 (-scale).toNat, den)

/-- The decimal `digits * 10 ^ scale` reads back. -/
def Neighbourhood.holds (nb : Neighbourhood) (digits : Nat) (scale : Int) : Bool :=
  let (low, den) := inPlaces nb.low nb.den scale
  let (high, _) := inPlaces nb.high nb.den scale
  let point := digits * den
  if nb.closed then low ≤ point && point ≤ high else low < point && point < high

/-- The decimal on the grid `10 ^ scale` that reads back and is nearest to the value; of two equally
near ones the even one. -/
def Neighbourhood.onGrid? (nb : Neighbourhood) (scale : Int) : Option Decimal :=
  let (num, den) := inPlaces nb.value nb.den scale
  let lower := num / den
  let nearerFirst :=
    if Magnitude.nearestEven num den = lower then [lower, lower + 1] else [lower + 1, lower]
  (nearerFirst.find? fun d => nb.holds d scale).map fun d => ⟨d, scale⟩

/-- The shortest decimal that reads back as `x`. -/
def shortest (x : Magnitude) : Decimal :=
  if x.mantissa = 0 then ⟨0, 0⟩
  else
    let nb := x.neighbourhood
    let lead := leadingPlace nb.value nb.den
    let grids := (List.range 17).map fun (n : Nat) => lead - n
    (grids.findSome? nb.onGrid?).getD ⟨0, 0⟩

/-- The significant digits of a decimal and the place of its point, counted from the first of them. -/
def Decimal.significant (d : Decimal) : List Char × Int :=
  let all := Nat.toDigits 10 d.digits
  ((all.reverse.dropWhile (· == '0')).reverse, all.length + d.scale)

/-- Positional form with at least one digit on either side of the point. -/
def positional (digits : List Char) (point : Int) : List Char :=
  if point ≤ 0 then ['0', '.'] ++ List.replicate (-point).toNat '0' ++ digits
  else
    let whole := point.toNat
    if digits.length ≤ whole then
      digits ++ List.replicate (whole - digits.length) '0' ++ ['.', '0']
    else digits.take whole ++ ['.'] ++ digits.drop whole

/-- One digit, the rest after a point, and the exponent with its sign. -/
def scientific (digits : List Char) (exponent : Int) : List Char :=
  let tail := match digits.drop 1 with
    | [] => []
    | ds => '.' :: ds
  digits.take 1 ++ tail ++ ['e', if exponent < 0 then '-' else '+']
    ++ Nat.toDigits 10 exponent.natAbs

/-- Written out in full from `10 ^ -5` up to `10 ^ 16`, with an exponent outside. -/
def compact (x : Magnitude) : List Char :=
  if x.mantissa = 0 then ['0', '.', '0']
  else
    let (digits, point) := x.shortest.significant
    if -5 < point && point ≤ 16 then positional digits point
    else scientific digits (point - 1)

end NodeDisks.Magnitude

namespace NodeDisks.Binary64

/-- The written form, with the sign in front. -/
def compact (x : Binary64) : List Char :=
  if x.negative then '-' :: x.magnitude.compact else x.magnitude.compact

end NodeDisks.Binary64
