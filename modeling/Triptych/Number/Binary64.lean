/-!
# Rounding to double precision

Two parts of the library speak of numbers that are not whole: the share of a stylesheet that
minification saves, and the fractions in configuration files. Both are fixed by double precision, so
the rounding is done here once, in exact arithmetic on natural numbers.

A `Binary64` is a number `mantissa * 2 ^ exponent` without a sign. `Binary64.nearest` rounds a
quotient to it (a tie goes to the even mantissa), `bits` is its interchange format, `tenths` rounds
it to one decimal place, and `shortest` finds the fewest decimal digits that round back to it.
-/

namespace Triptych

/-- Rounds `num / den` to the nearest natural number; a tie goes to the even neighbour. -/
def roundDiv (num den : Nat) : Nat :=
  let quotient := num / den
  let rest := 2 * (num % den)
  if rest < den then quotient
  else if den < rest then quotient + 1
  else quotient + quotient % 2

/-- The number `mantissa * 2 ^ exponent`. A finite double has a mantissa below `2 ^ 53`, which
reaches `2 ^ 52` unless the exponent is the least one, -1074. -/
structure Binary64 where
  mantissa : Nat
  exponent : Int
deriving DecidableEq, Repr

namespace Binary64

/-- Zero. -/
def zero : Binary64 := ⟨0, -1074⟩

/-- The factor `2 ^ n` on the numerator's side, 1 when `n` is negative. -/
def scale (n : Int) : Nat :=
  Nat.pow 2 n.toNat

/-- The double nearest to `num / den`; zero when `den` is zero. The exponent is not bounded above,
see `isFinite`. -/
def nearest (num den : Nat) : Binary64 :=
  if num = 0 || den = 0 then zero
  else
    let guess : Int := (num.log2 : Int) - den.log2 - 53
    let wide := num * scale (-guess) / (den * scale guess) ≥ Nat.pow 2 53
    let exponent := max (if wide then guess + 1 else guess) (-1074)
    let mantissa := roundDiv (num * scale (-exponent)) (den * scale exponent)
    if mantissa = Nat.pow 2 53 then ⟨Nat.pow 2 52, exponent + 1⟩ else ⟨mantissa, exponent⟩

/-- False of a number beyond the greatest double. -/
def isFinite (x : Binary64) : Bool :=
  x.exponent ≤ 971

/-- The numerator of the exact value. -/
def num (x : Binary64) : Nat :=
  x.mantissa * scale x.exponent

/-- The denominator of the exact value. -/
def den (x : Binary64) : Nat :=
  scale (-x.exponent)

/-- The double nearest to the quotient; zero when the divisor is zero. -/
def div (x y : Binary64) : Binary64 :=
  nearest (x.num * y.den) (x.den * y.num)

/-- The double nearest to the product. -/
def mul (x y : Binary64) : Binary64 :=
  nearest (x.num * y.num) (x.den * y.den)

/-- The double nearest to a natural number. -/
def ofNat (n : Nat) : Binary64 :=
  nearest n 1

/-- The double nearest to a power of ten. -/
def powerOfTen (n : Nat) : Binary64 :=
  nearest (Nat.pow 10 n) 1

/-- Divides by a power of ten. Powers beyond the range of doubles are divided by in steps, each of
which rounds. -/
def divPowerOfTen (x : Binary64) (power : Nat) : Binary64 :=
  if x.mantissa = 0 then zero
  else if power ≤ 308 then x.div (powerOfTen power)
  else divPowerOfTen (x.div (powerOfTen 308)) (power - 308)
termination_by power

/-- Multiplies a natural number by a power of ten, in doubles: both factors are rounded, then the
product or quotient. Nothing when the result, or the power alone, is beyond the greatest double. -/
def scaled? (n : Nat) (power : Int) : Option Binary64 :=
  if n = 0 then some zero
  else if power < 0 then some ((ofNat n).divPowerOfTen (-power).toNat)
  else if 308 < power then none
  else
    let product := (ofNat n).mul (powerOfTen power.toNat)
    if product.isFinite then some product else none

/-- The interchange format: eleven bits of exponent above fifty-two of mantissa. -/
def bits (x : Binary64) : Nat :=
  if x.mantissa < Nat.pow 2 52 then x.mantissa
  else (x.exponent + 1075).toNat * Nat.pow 2 52 + (x.mantissa - Nat.pow 2 52)

/-- The value with one decimal place; a tie goes to the even tenth. -/
def tenths (x : Binary64) : String :=
  let n := roundDiv (10 * x.num) x.den
  s!"{n / 10}.{n % 10}"

/-! ### The fewest digits -/

/-- The greatest `k` with `10 ^ k ≤ num / den`. -/
def floorLog10 (num den : Nat) : Int :=
  let guess : Int := ((Nat.toDigits 10 num).length : Int) - (Nat.toDigits 10 den).length
  if den * Nat.pow 10 guess.toNat ≤ num * Nat.pow 10 (-guess).toNat then guess else guess - 1

/-- True when `digits * 10 ^ power` rounds to `x`. -/
def roundsTo (x : Binary64) (digits : Nat) (power : Int) : Bool :=
  nearest (digits * Nat.pow 10 power.toNat) (Nat.pow 10 (-power).toNat) == x

/-- The decimal with at most `count` digits that rounds to `x` and lies nearest to it, if there is
one: of the two neighbours of `x` on the grid of that many digits. -/
def withDigits (x : Binary64) (count : Nat) : Option (Nat × Int) :=
  let power := floorLog10 x.num x.den - (count : Int) + 1
  let num := x.num * Nat.pow 10 (-power).toNat
  let den := x.den * Nat.pow 10 power.toNat
  let near := roundDiv num den
  let below := num / den
  let other := if near = below then below + 1 else below
  if x.roundsTo near power then some (near, power)
  else if x.roundsTo other power then some (other, power)
  else none

/-- The fewest decimal digits that round to a positive `x`, with the power of ten they are
multiplied by. Seventeen always suffice. -/
def shortest (x : Binary64) : Nat × Int :=
  ((List.range 17).findSome? fun n => x.withDigits (n + 1)).getD (x.num / x.den, 0)

end Binary64

end Triptych
