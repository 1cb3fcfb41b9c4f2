import Offside.Text.Basic
import Offside.Number.Double
import Offside.Yaml.Moment

/-!
The values of scalars by their kinds. A tag can give any text to a kind, so that each reader has its
own faults. Bytes are text with six bits a character: characters outside the alphabet do not count,
and the reader stops at a group that padding completes.
-/
namespace Offside.Text.Base64

/-- The six bits of a character. -/
def sextet? (c : Char) : Option Nat :=
  if 'A' ≤ c && c ≤ 'Z' then some (c.toNat - 65)
  else if 'a' ≤ c && c ≤ 'z' then some (c.toNat - 71)
  else if '0' ≤ c && c ≤ '9' then some (c.toNat + 4)
  else if c == '+' then some 62
  else if c == '/' then some 63
  else none

/-- Reads the rest of a text. `group` has the sextets of the group that has been started, `pads` is
how many paddings follow the last of them. A text that ends within a group is none. -/
def decodeFrom (group : List Nat) (pads : Nat) : Text → Option (List Nat)
  | [] => if group.isEmpty then some [] else none
  | '=' :: s =>
    if group.length < 2 then decodeFrom group pads s
    else if 4 ≤ group.length + pads + 1 then some (bytesOf group)
    else decodeFrom group (pads + 1) s
  | c :: s =>
    match sextet? c with
    | none => decodeFrom group pads s
    | some x =>
      if group.length == 3 then (decodeFrom [] 0 s).map (bytesOf (group ++ [x]) ++ ·)
      else decodeFrom (group ++ [x]) 0 s
where
  /-- The whole bytes of a group. -/
  bytesOf : List Nat → List Nat
    | a :: b :: more =>
      (4 * a + b / 16) :: match more with
        | c :: more =>
          (b % 16 * 16 + c / 4) :: match more with
            | d :: _ => [c % 4 * 64 + d]
            | [] => []
        | [] => []
    | _ => []

/-- The bytes of a text. -/
def decode? (s : Text) : Option (List Nat) := decodeFrom [] 0 s

end Offside.Text.Base64

namespace Offside.Yaml

open Data

namespace Scalar

/-- A scalar without its underscores, which only group digits. -/
def ungrouped (s : Text) : Text := s.filter (· != '_')

/-- The whole number that a text shows to a base. -/
def integerOf (base : Nat) (s : Text) : Except Fault Int :=
  (Numeral.integer? base s).mapError .noInteger

/-- The number that parts to base sixty stand for. -/
def joinSixtieths (parts : List Int) : Int := parts.foldl (fun n part => 60 * n + part) 0

def magnitude (v : Version) (s : Text) : Except Fault Int :=
  match s with
  | ['0'] => .ok 0
  | '0' :: 'b' :: digits => integerOf 2 digits
  | '0' :: 'x' :: digits => integerOf 16 digits
  | '0' :: 'o' :: digits => integerOf 8 digits
  | s =>
    if v.isOld && s.isEmpty then .error .emptyNumber
    else if v.isOld && s.head? == some '0' then integerOf 8 s
    else if v.isOld && s.contains ':' then
      ((Text.splitWhen (· == ':') s).mapM (integerOf 10)).map joinSixtieths
    else integerOf 10 s

def integer (v : Version) (s : Text) : Except Fault Int :=
  let s := ungrouped s
  if s.isEmpty then .error .emptyNumber
  else
    let (negative, body) := Numeral.cutSign s
    (magnitude v body).map fun n => if negative then -n else n

/-- The number with a fraction that a text shows. -/
def doubleOf (s : Text) : Except Fault Double :=
  match Numeral.double? s with
  | some x => .ok x
  | none => .error (.noDouble s)

/-- The sum of parts to base sixty; the last part counts as it is. -/
def sumSixtieths (parts : List Double) : Double :=
  (parts.reverse.foldl (fun (total, base) x => (total.add (x.mulNat base), 60 * base))
    (Double.finite false 0 Double.leastExponent, 1)).1

/-- The number with a fraction that a scalar shows without its sign. -/
def fractionalMagnitude (v : Version) (s : Text) : Except Fault Double :=
  if s == ".inf".toList then .ok (.infinite false)
  else if s == ".nan".toList then .ok .undefined
  else if v != .current && s.contains ':' then
    ((Text.splitWhen (· == ':') s).mapM doubleOf).map sumSixtieths
  else if v != .current && 1 < s.count 'e' then .error .exponents
  else doubleOf s

/-- The number with a fraction that a scalar shows, in letters of either case. -/
def double (v : Version) (s : Text) : Except Fault Double :=
  let s := (ungrouped s).map Char.toLower
  if s.isEmpty then .error .emptyNumber
  else
    let (negative, body) := Numeral.cutSign s
    (fractionalMagnitude v body).map fun x => if negative then x.neg else x

/-- The truth value of a word, in letters of either case. -/
def truth (s : Text) : Except Fault Bool :=
  let word := s.map Char.toLower
  if ["yes", "y", "true", "on"].any (·.toList == word) then .ok true
  else if ["no", "n", "false", "off"].any (·.toList == word) then .ok false
  else .error (.noTruthWord s)

def bytes (s : Text) : Except Fault (List Nat) :=
  if s.all (·.toNat < 0x80) then
    match Text.Base64.decode? s with
    | some bytes => .ok bytes
    | none => malformed
  else malformed

/-- The day or time that a scalar shows. A line feed at its end does not count. -/
def moment (s : Text) : Except Fault Value :=
  match MomentText.ofText? ((Text.dropEnding? ['\n'] s).getD s) with
  | some m => m.value.mapError .calendar
  | none => malformed

/-- The value of a scalar of a kind. The signs of mappings have no value of their own. -/
def value (v : Version) (kind : Kind) (s : Text) : Except Fault Value :=
  match kind with
  | .null => .ok .null
  | .boolean => (truth s).map .boolean
  | .integer => (integer v s).map .integer
  | .double => (double v s).map .double
  | .moment => moment s
  | .binary => (bytes s).map .bytes
  | .text => .ok (.text s)
  | _ => malformed

end Scalar

end Offside.Yaml
