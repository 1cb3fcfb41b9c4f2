import Offside.Data.Value
import Offside.Number.Numeral
import Offside.Number.Shortest
import Offside.Text.Literal

/-!
How values are shown to the user: their kinds and their contents. A value with a whole number that
is too long to be written cannot be shown; its kind can.
-/
namespace Offside.Data

def Shape.name : Shape → Text
  | list => "list".toList
  | mapping => "dict".toList
  | set => "set".toList
  | ordered => "ordereddict".toList

/-- How a collection is shown within itself. -/
def Shape.dots : Shape → Text
  | list => "[...]".toList
  | mapping => "\x7b...\x7d".toList
  | set => "set(...)".toList
  | ordered => "...".toList

namespace Value

def kindName : Value → Text
  | null => "NoneType".toList
  | boolean _ => "bool".toList
  | integer _ => "int".toList
  | double _ => "float".toList
  | text _ => "str".toList
  | bytes _ => "bytes".toList
  | date _ => "date".toList
  | moment _ _ _ => "datetime".toList
  | list _ => Shape.list.name
  | tuple _ => "tuple".toList
  | set _ => Shape.set.name
  | mapping _ => Shape.mapping.name
  | ordered _ => Shape.ordered.name
  | enclosing shape => shape.name

/-- Texts with commas between them, in parentheses behind a name. -/
def call (name : String) (arguments : List Text) : Text :=
  name.toList ++ '(' :: ", ".toList.intercalate arguments ++ [')']

/-- A time without what is zero at its end; hours and minutes are always there. -/
def timeParts (t : Time) : List Nat :=
  if t.microsecond != 0 then [t.hour, t.minute, t.second, t.microsecond]
  else if t.second != 0 then [t.hour, t.minute, t.second]
  else [t.hour, t.minute]

def zoneLiteral (z : Zone) : Text :=
  call "datetime.timezone" [spanText z.ahead, Text.literal z.name]

def momentLiteral (d : Date) (t : Time) (z : Option Zone) : Text :=
  let figures := ([d.year, d.month, d.day] ++ timeParts t).map Text.ofNat
  call "datetime.datetime" (figures ++ (z.map fun z => "tzinfo=".toList ++ zoneLiteral z).toList)

mutual

def literal : Value → Text
  | null => "None".toList
  | boolean true => "True".toList
  | boolean false => "False".toList
  | integer n => Text.ofInt n
  | double x => x.write
  | text s => Text.literal s
  | bytes s => Text.byteLiteral s
  | date d => call "datetime.date" ([d.year, d.month, d.day].map Text.ofNat)
  | moment d t z => momentLiteral d t z
  | list items => '[' :: literals items ++ [']']
  | tuple [item] => '(' :: literal item ++ ",)".toList
  | tuple items => '(' :: literals items ++ [')']
  | set [] => "set()".toList
  | set items => '\x7b' :: literals items ++ ['\x7d']
  | mapping members => '\x7b' :: memberLiterals members ++ ['\x7d']
  | ordered [] => "ordereddict()".toList
  | ordered members => "ordereddict([".toList ++ pairLiterals members ++ "])".toList
  | enclosing shape => shape.dots

def literals : List Value → Text
  | [] => []
  | [item] => literal item
  | item :: items => literal item ++ ',' :: ' ' :: literals items

def memberLiterals : List (Value × Value) → Text
  | [] => []
  | [(key, value)] => literal key ++ ':' :: ' ' :: literal value
  | (key, value) :: members =>
    literal key ++ ':' :: ' ' :: literal value ++ ',' :: ' ' :: memberLiterals members

def pairLiterals : List (Value × Value) → Text
  | [] => []
  | [(key, value)] => '(' :: literal key ++ ',' :: ' ' :: literal value ++ [')']
  | (key, value) :: members =>
    '(' :: literal key ++ ',' :: ' ' :: literal value ++ ')' :: ',' :: ' ' :: pairLiterals members

end

/-- A number with zeros in front of it, so that it has at least some digits. -/
def padded (width n : Nat) : Text :=
  let digits := Text.ofNat n
  List.replicate (width - digits.length) '0' ++ digits

def dateText (d : Date) : Text :=
  padded 4 d.year ++ '-' :: padded 2 d.month ++ '-' :: padded 2 d.day

def timeText (t : Time) : Text :=
  padded 2 t.hour ++ ':' :: padded 2 t.minute ++ ':' :: padded 2 t.second ++
    if t.microsecond == 0 then [] else '.' :: padded 6 t.microsecond

def zoneText (z : Zone) : Text :=
  let minutes := z.ahead.natAbs
  (if z.ahead < 0 then '-' else '+') :: padded 2 (minutes / 60) ++ ':' :: padded 2 (minutes % 60)

/-- A value as it is shown outside a literal: a text is itself. -/
def shown : Value → Text
  | text s => s
  | date d => dateText d
  | moment d t z => dateText d ++ ' ' :: timeText t ++ (z.map zoneText).getD []
  | v => v.literal

mutual

def isShowable : Value → Bool
  | integer n => Numeral.isWritable n
  | list items | tuple items | set items => areShowable items
  | mapping members | ordered members => haveShowable members
  | _ => true

def areShowable : List Value → Bool
  | [] => true
  | item :: items => isShowable item && areShowable items

def haveShowable : List (Value × Value) → Bool
  | [] => true
  | (key, value) :: members => isShowable key && isShowable value && haveShowable members

end

end Value

end Offside.Data
