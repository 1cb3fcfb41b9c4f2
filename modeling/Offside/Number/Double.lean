import Offside.Text.Basic

/-!
Numbers with a fraction: a sign, a whole significand of at most 53 bits and a power of two. A
decimal becomes the nearest of them, and of two equally near the one with an even significand. Sums
and products are the numbers nearest to the exact ones.
-/
namespace Offside

/-- A number with a fraction. A finite one is `significand * 2 ^ exponent`; its significand has 53
bits unless the exponent is the least one. -/
inductive Double
  | finite (negative : Bool) (significand : Nat) (exponent : Int)
  | infinite (negative : Bool)
  | undefined
deriving DecidableEq, Repr, Inhabited

namespace Double

def leastExponent : Int := -1074

/-- The greatest exponent of a significand with all its bits. -/
def greatestExponent : Int := 971

/-- The least number that has one bit more than a significand. -/
def bound : Nat := Nat.pow 2 53

/-- The least significand with all its bits. -/
def halfBound : Nat := Nat.pow 2 52

/-- `num / den * b ^ e` as a quotient of natural numbers. -/
def scale (num den b : Nat) : Int → Nat × Nat
  | .ofNat e => (num * Nat.pow b e, den)
  | .negSucc e => (num, den * Nat.pow b (e + 1))

/-- The natural number nearest to a quotient; a half goes to the even neighbour. -/
def nearest (num den : Nat) : Nat :=
  let q := num / den
  let twice := 2 * (num % den)
  if twice < den then q else if den < twice then q + 1 else q + q % 2

/-- The number nearest to a positive quotient. -/
def ofQuotient (negative : Bool) (num den : Nat) : Double :=
  let guess := max leastExponent ((num.log2 : Int) - den.log2 - 53)
  let (n, d) := scale num den 2 (-guess)
  let exponent := if bound ≤ n / d then guess + 1 else guess
  let (n, d) := scale num den 2 (-exponent)
  let significand := nearest n d
  let (significand, exponent) :=
    if significand == bound then (halfBound, exponent + 1) else (significand, exponent)
  if greatestExponent < exponent then infinite negative else finite negative significand exponent

/-- The number nearest to `digits * 10 ^ e`. Powers far beyond the range are cut off first. -/
def ofDecimal (negative : Bool) (digits : Nat) (e : Int) : Double :=
  let size := ((Text.ofNat digits).length : Int) + e
  if digits == 0 || size < -330 then finite negative 0 leastExponent
  else if 310 < size then infinite negative
  else
    let (n, d) := scale digits 1 10 e
    ofQuotient negative n d

def isZero : Double → Bool
  | finite _ significand _ => significand == 0
  | _ => false

/-- The whole number that a number is, if it is one. -/
def toInt? : Double → Option Int
  | finite negative significand exponent =>
    let (n, d) := scale significand 1 2 exponent
    if n % d == 0 then some (if negative then -(n / d : Nat) else (n / d : Nat)) else none
  | _ => none

/-- The number nearest to `n * 2 ^ e`; `negative` is the sign of a zero. -/
def ofScaled (negative : Bool) (n : Int) (e : Int) : Double :=
  if n == 0 then finite negative 0 leastExponent
  else
    let (num, den) := scale n.natAbs 1 2 e
    ofQuotient (n < 0) num den

def signed (negative : Bool) (significand : Nat) : Int :=
  if negative then -significand else significand

def neg : Double → Double
  | finite negative significand exponent => finite (!negative) significand exponent
  | infinite negative => infinite !negative
  | undefined => undefined

def add : Double → Double → Double
  | finite s m e, finite t n f =>
    let g := min e f
    let total := signed s m * Nat.pow 2 (e - g).toNat + signed t n * Nat.pow 2 (f - g).toNat
    ofScaled (s && t) total g
  | infinite s, infinite t => if s == t then infinite s else undefined
  | undefined, _ => undefined
  | _, undefined => undefined
  | infinite s, _ => infinite s
  | _, infinite t => infinite t

def mulNat : Double → Nat → Double
  | finite s m e, n => ofScaled s (signed s m * n) e
  | infinite s, n => if n == 0 then undefined else infinite s
  | undefined, _ => undefined

end Double

end Offside
