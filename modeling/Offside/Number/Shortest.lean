import Offside.Number.Double

/-!
The shortest decimal of a number: the fewest digits that read back as the number, and of those the
nearest to it. It is written with a point from a ten-thousandth up to ten to the sixteenth, and with
a power of ten beyond.
-/
namespace Offside.Double

/-- The decimals that read back as a number: the quotients between two others with the same
denominator. The ends belong to them if the significand is even. -/
structure Interval where
  low : Nat
  value : Nat
  high : Nat
  den : Nat
  closed : Bool

/-- The interval of a positive number. Below a power of two the numbers lie closer together. -/
def interval (significand : Nat) (exponent : Int) : Interval :=
  let atPower := significand == halfBound && leastExponent < exponent
  let (_, den) := scale 1 1 2 (exponent - 2)
  let (unit, _) := scale 1 1 2 (exponent - 2)
  let value := 4 * significand
  ⟨(value - if atPower then 1 else 2) * unit, value * unit, (value + 2) * unit, den,
    significand % 2 == 0⟩

def Interval.contains (i : Interval) (n : Nat) (e : Int) : Bool :=
  let (a, d) := scale n 1 10 e
  let x := a * i.den
  if i.closed then i.low * d ≤ x && x ≤ i.high * d else i.low * d < x && x < i.high * d

/-- The exponent of the leading digit of a quotient that is no greater than ten to the power of
`bound`; it is looked for downwards. -/
def leadingExponent (num den : Nat) (bound : Int) : Nat → Int
  | 0 => bound
  | steps + 1 =>
    let (n, d) := scale 1 1 10 bound
    if n * den ≤ num * d then bound else leadingExponent num den (bound - 1) steps

/-- The decimal with `count` digits, from the one with exponent `e` of its leading digit on, that
reads back: the nearer of the two neighbours of the value. -/
def onGrid? (i : Interval) (e : Int) (count : Nat) : Option (Nat × Int) :=
  let step := e - count + 1
  let (n, d) := scale i.value i.den 10 (-step)
  let below := n / d
  let near := nearest n d
  let far := if near == below then below + 1 else below
  if i.contains near step then some (near, step)
  else if i.contains far step then some (far, step)
  else none

/-- The first grid, by number of digits, with a decimal that reads back. -/
def shortestFrom (i : Interval) (e : Int) (count : Nat) : Nat → Nat × Int
  | 0 => (0, 0)
  | tries + 1 => ((onGrid? i e count)).getD (shortestFrom i e (count + 1) tries)

/-- The shortest decimal of a positive number: its digits and the power of ten they stand for. -/
def shortest (significand : Nat) (exponent : Int) : Nat × Int :=
  let i := interval significand exponent
  shortestFrom i (leadingExponent i.value i.den 309 640) 1 17

def dropZeros (digits : Text) : Text := (digits.reverse.dropWhile (· == '0')).reverse

/-- A decimal with a point, or with a power of ten if its leading digit is far from the point. -/
def layout (digits : Text) (leading : Int) : Text :=
  if -4 ≤ leading && leading < 16 then
    if leading < 0 then "0.".toList ++ List.replicate (-leading - 1).toNat '0' ++ digits
    else
      let whole := leading.toNat + 1
      let places := digits.drop whole
      digits.take whole ++ List.replicate (whole - digits.length) '0' ++ '.' ::
        (if places.isEmpty then ['0'] else places)
  else
    let places := digits.drop 1
    let power := Text.ofNat leading.natAbs
    digits.take 1 ++ (if places.isEmpty then [] else '.' :: places) ++ 'e' ::
      (if leading < 0 then '-' else '+') :: (if power.length < 2 then '0' :: power else power)

def write : Double → Text
  | undefined => "nan".toList
  | infinite negative => if negative then "-inf".toList else "inf".toList
  | finite negative significand exponent =>
    let sign : Text := if negative then ['-'] else []
    if significand == 0 then sign ++ "0.0".toList
    else
      let (n, e) := shortest significand exponent
      let digits := Text.ofNat n
      sign ++ layout (dropZeros digits) (e + digits.length - 1)

end Offside.Double
