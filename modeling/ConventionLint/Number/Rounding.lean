/-!
# Rounding

Quotients rounded to the nearest integer, quotients rounded to the nearest binary floating-point
number of 53 digits, and decimals of a fixed number of places. A tie goes to the even neighbour
everywhere.
-/
namespace ConventionLint.Number

/-- The integer nearest to a quotient. -/
def roundDiv (num den : Nat) : Nat :=
  let q := num / den
  let twice := 2 * (num % den)
  if twice < den || (twice = den && q % 2 = 0) then q else q + 1

/-- A quotient of natural numbers. -/
structure Ratio where
  num : Nat
  den : Nat
deriving DecidableEq, Repr

namespace Ratio

/-- A multiple of a power of two. -/
def scaled (digits : Nat) (exponent : Int) : Ratio :=
  ⟨digits <<< exponent.toNat, 1 <<< (-exponent).toNat⟩

/-- The nearest number with 53 binary digits, whatever its exponent. -/
def toBinary (r : Ratio) : Ratio :=
  if r.num = 0 then ⟨0, 1⟩
  else
    let guess : Int := (r.num.log2 : Int) - r.den.log2 - 52
    let quotient := fun (exponent : Int) =>
      (r.num <<< (-exponent).toNat, r.den <<< exponent.toNat)
    let (num, den) := quotient guess
    let exponent := if (num / den).log2 < 52 then guess - 1 else guess
    let (num, den) := quotient exponent
    scaled (roundDiv num den) exponent

/-- The quotient of two floating-point numbers, rounded to one. -/
def binaryDiv (a : Ratio) (divisor : Nat) : Ratio :=
  toBinary ⟨a.num, a.den * divisor⟩

/-- A decimal with the given number of places, one at least. -/
def fixed (r : Ratio) (places : Nat) : String :=
  let scale := Nat.pow 10 places
  let units := roundDiv (r.num * scale) r.den
  let fraction := (units % scale).repr
  (units / scale).repr ++ "."
    ++ String.ofList (List.replicate (places - fraction.length) '0') ++ fraction

end Ratio

/-- Milliseconds as seconds, with the precision of a floating-point division. -/
def seconds (milliseconds : Nat) : Ratio :=
  (Ratio.toBinary ⟨milliseconds, 1⟩).binaryDiv 1000

end ConventionLint.Number
