/-!
# Shortest decimals

The shortest decimal of a floating-point number is the one with the fewest digits that
reads back as the number, and of several the nearest to it.

A finite number is `m · 2^q`.  The reals that round to it are the interval between the
midpoints to its neighbours, ends included when `m` is even.  For one digit, two digits
and so on, the two points of the decimal grid next to the number are tried in exact
arithmetic until one lies in the interval; seventeen digits always do.
-/

namespace BundleCoverage.Decimal

/-- A positive decimal `digits · 10^exponent`. -/
structure Scientific where
  /-- The digits, as a number that does not end in zero. -/
  digits : Nat
  /-- The power of ten. -/
  exponent : Int
deriving Repr, DecidableEq

/-- Three numbers over one denominator: a value and the interval of what rounds to it. -/
structure Rounding where
  /-- The value. -/
  value : Nat
  /-- The lower end. -/
  lower : Nat
  /-- The upper end. -/
  upper : Nat
  /-- The denominator. -/
  den : Nat
  /-- Whether the ends belong to the interval. -/
  closed : Bool

/-- The first number that the fraction bits of a number cannot hold. -/
def fractionBound : Nat := 1 <<< 52

/-- A power of ten. -/
def tenTo (exponent : Nat) : Nat := Nat.pow 10 exponent

/-- The interval of a positive finite number, from its bits. -/
def Rounding.ofBits (bits : UInt64) : Rounding :=
  let fraction := bits.toNat % fractionBound
  let biased := bits.toNat / fractionBound % 2048
  let m := if biased = 0 then fraction else fractionBound + fraction
  let shift := (if biased = 0 then 1 else biased)
  let below := if fraction = 0 ∧ 1 < biased then 1 else 2
  -- The number is `m · 2^(shift - 1075)`, and the ends lie on quarters of that unit.
  let scale := 1 <<< (shift - 1077)
  { value := 4 * m * scale
    lower := (4 * m - below) * scale
    upper := (4 * m + 2) * scale
    den := 1 <<< (1077 - shift)
    closed := m % 2 = 0 }

/-- Whether `digits · 10^exponent` lies in the interval. -/
def Rounding.contains (r : Rounding) (digits : Nat) (exponent : Int) : Bool :=
  let point := digits * r.den * tenTo exponent.toNat
  let scale := tenTo (-exponent).toNat
  if r.closed then r.lower * scale ≤ point && point ≤ r.upper * scale
  else r.lower * scale < point && point < r.upper * scale

/-- The point of the grid of multiples of `10^exponent` that is nearest to the value among
those in the interval. -/
def Rounding.onGrid? (r : Rounding) (exponent : Int) : Option Nat :=
  let num := r.value * tenTo (-exponent).toNat
  let den := r.den * tenTo exponent.toNat
  let low := num / den
  let rest := num % den
  match r.contains low exponent, r.contains (low + 1) exponent with
  | true, true =>
    if 2 * rest < den then some low
    else if den < 2 * rest then some (low + 1)
    else some (low + low % 2)
  | true, false => some low
  | false, true => some (low + 1)
  | false, false => none

/-- The first grid with a point in the interval, from `exponent` downwards. -/
def Rounding.search (r : Rounding) : (fuel : Nat) → (exponent : Int) → Scientific
  | 0, exponent => ⟨r.value * tenTo (-exponent).toNat / (r.den * tenTo exponent.toNat), exponent⟩
  | fuel + 1, exponent =>
    match r.onGrid? exponent with
    | some (digits + 1) => ⟨digits + 1, exponent⟩
    | _ => r.search fuel (exponent - 1)

/-- The number of decimal digits. -/
def length (n : Nat) : Nat := (Nat.toDigits 10 n).length

/-- The least `j ≤ fuel` for which `num · 10^j ≥ den`. -/
def leadingZeros (num den : Nat) : (fuel : Nat) → Nat
  | 0 => 0
  | fuel + 1 => if den ≤ num then 0 else leadingZeros (10 * num) den fuel + 1

/-- The shortest decimal of a positive finite number. -/
def shortest (bits : UInt64) : Scientific :=
  let r := Rounding.ofBits bits
  let top : Int :=
    if r.den ≤ r.value then length (r.value / r.den) else 1 - leadingZeros r.value r.den 400
  r.search 18 top

/-- The digits as text. -/
def Scientific.text (s : Scientific) : String := toString s.digits

/-- A decimal without an exponent, with a fraction only where one is needed. -/
def Scientific.positional (s : Scientific) : String :=
  let digits := Nat.toDigits 10 s.digits
  if 0 ≤ s.exponent then String.ofList (digits ++ List.replicate s.exponent.toNat '0')
  else
    let places := (-s.exponent).toNat
    let padded := List.replicate (places + 1 - digits.length) '0' ++ digits
    String.ofList (padded.take (padded.length - places) ++ '.' :: padded.drop (padded.length - places))

/-- A decimal with one digit before the point and an exponent. -/
def Scientific.exponential (s : Scientific) : String :=
  let digits := Nat.toDigits 10 s.digits
  let exponent := s.exponent + (digits.length - 1 : Nat)
  match digits with
  | [] => "0"
  | [d] => String.ofList [d] ++ "e" ++ toString exponent
  | d :: rest => String.ofList (d :: '.' :: rest) ++ "e" ++ toString exponent

end BundleCoverage.Decimal
