import Offside.Text.Basic
import Offside.Number.Double
import Offside.Text.Literal

/-!
Numbers from numerals. Digits may be of any script, and blanks may stand around a numeral. A script
has its ten digits in a row; the zeros are those of Unicode 14. A whole number can be written to a
base, with the letters of the base in front of it.
-/
namespace Offside.Text

/-- The zeros of all scripts, in order. -/
def zeros : List Nat :=
  [0x30, 0x660, 0x6F0, 0x7C0, 0x966, 0x9E6, 0xA66, 0xAE6, 0xB66, 0xBE6, 0xC66, 0xCE6, 0xD66,
   0xDE6, 0xE50, 0xED0, 0xF20, 0x1040, 0x1090, 0x17E0, 0x1810, 0x1946, 0x19D0, 0x1A80, 0x1A90,
   0x1B50, 0x1BB0, 0x1C40, 0x1C50, 0xA620, 0xA8D0, 0xA900, 0xA9D0, 0xA9F0, 0xAA50, 0xABF0,
   0xFF10, 0x104A0, 0x10D30, 0x11066, 0x110F0, 0x11136, 0x111D0, 0x112F0, 0x11450, 0x114D0,
   0x11650, 0x116C0, 0x11730, 0x118E0, 0x11950, 0x11C50, 0x11D50, 0x11DA0, 0x16A60, 0x16AC0,
   0x16B50, 0x1D7CE, 0x1D7D8, 0x1D7E2, 0x1D7EC, 0x1D7F6, 0x1E140, 0x1E2F0, 0x1E950, 0x1FBF0]

/-- The value of a decimal digit of any script. -/
def digitValue? (c : Char) : Option Nat :=
  (zeros.find? fun first => first ≤ c.toNat && c.toNat < first + 10).map (c.toNat - ·)

/-- A digit of any script as the one of ASCII; other characters are themselves. -/
def plainDigit (c : Char) : Char :=
  match digitValue? c with
  | some d => Char.ofNat (48 + d)
  | none => c

end Offside.Text

namespace Offside.Numeral

/-- Why a text is no whole number. -/
inductive Error
  | noNumber (base : Nat) (text : Text)
  /-- A decimal numeral has more digits than are read. -/
  | tooLong (digits : Nat)
deriving DecidableEq, Repr

/-- The greatest number of digits of a decimal numeral that is read or written. -/
def digitLimit : Nat := 4300

/-- How much of a text is shown. -/
def shownLimit : Nat := 200

def Error.message : Error → Text
  | noNumber base s => "invalid literal for int() with base ".toList ++ Text.ofNat base ++
      ": ".toList ++ (Text.literal s).take shownLimit
  | tooLong digits => "Exceeds the limit (".toList ++ Text.ofNat digitLimit ++
      " digits) for integer string conversion: value has ".toList ++ Text.ofNat digits ++
      " digits; use sys.set_int_max_str_digits() to increase the limit".toList

/-- Whether a number can be written: it has no more digits than the limit. -/
def isWritable (n : Int) : Bool := n.natAbs < Nat.pow 10 digitLimit

/-- What the user reads where a number cannot be written. -/
def unwritableMessage : Text := "Exceeds the limit (".toList ++ Text.ofNat digitLimit ++
  (" digits) for integer string conversion; " ++
    "use sys.set_int_max_str_digits() to increase the limit").toList

/-- A blank around a numeral. The information separators are none. -/
def isBlank (c : Char) : Bool := Text.isBlank c && !(28 ≤ c.toNat && c.toNat ≤ 31)

/-- A numeral without the blanks around it, in the digits of ASCII. -/
def plain (s : Text) : Text :=
  let s := s.dropWhile isBlank
  (s.reverse.dropWhile isBlank).reverse.map Text.plainDigit

/-- A numeral without its sign, and whether that is a minus. -/
def cutSign : Text → Bool × Text
  | '-' :: s => (true, s)
  | '+' :: s => (false, s)
  | s => (false, s)

/-- The value of a digit to a base; letters go on where the figures end. -/
def digit? (base : Nat) (c : Char) : Option Nat := (Text.hexValue? c).filter (· < base)

/-- The number that digits to a base show. -/
def ofDigits (base : Nat) (digits : Text) : Nat :=
  digits.foldl (fun n c => base * n + (digit? base c).getD 0) 0

def baseLetter? (base : Nat) : Option Char :=
  ([(2, 'b'), (8, 'o'), (16, 'x')] : List (Nat × Char)).lookup base

/-- The digits of a numeral without the letters of its base. -/
def cutBase (base : Nat) : Text → Text
  | '0' :: c :: s => if (baseLetter? base).any (· == c.toLower) then s else '0' :: c :: s
  | s => s

/-- The whole number that a text shows to a base of at most sixteen. -/
def integer? (base : Nat) (s : Text) : Except Error Int :=
  let (negative, body) := cutSign (plain s)
  let numeral := cutBase base body
  let digits := numeral.takeWhile fun c => (digit? base c).isSome
  if base == 10 && digitLimit < digits.length then .error (.tooLong digits.length)
  else if digits.isEmpty || digits.length < numeral.length then .error (.noNumber base s)
  else
    let n := ofDigits base digits
    .ok (if negative then -(n : Int) else n)

/-- The exponent of a number: a letter, a sign that can be missing, and digits. -/
def exponent? : Text → Option Int
  | [] => some 0
  | e :: s =>
    let (negative, digits) := cutSign s
    if e.toLower != 'e' || digits.isEmpty || !digits.all Char.isDigit then none
    else
      let n := ofDigits 10 digits
      some (if negative then -(n : Int) else n)

/-- The number with a fraction that a text shows; words stand for what is not finite. -/
def double? (s : Text) : Option Double :=
  let (negative, body) := cutSign (plain s)
  let word := body.map Char.toLower
  if ["inf", "infinity"].any (·.toList == word) then some (.infinite negative)
  else if word == "nan".toList then some .undefined
  else
    let whole := body.takeWhile Char.isDigit
    let rest := body.drop whole.length
    let (places, rest) := match rest with
      | '.' :: s => (s.takeWhile Char.isDigit, s.dropWhile Char.isDigit)
      | s => ([], s)
    if whole.isEmpty && places.isEmpty then none
    else (exponent? rest).map fun e =>
      .ofDecimal negative (ofDigits 10 (whole ++ places)) (e - places.length)

end Offside.Numeral
