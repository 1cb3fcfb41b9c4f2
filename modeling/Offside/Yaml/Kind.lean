import Offside.Yaml.Fault

/-!
The kinds of nodes. A tag names the kind of a node; without one, a plain scalar shows by its form
what it is. The old version of the notation has more words for truth values, octal numbers with a
zero in front, and numbers to base sixty.
-/
namespace Offside.Yaml

/-- What a node is. -/
inductive Kind
  | null
  | boolean
  | integer
  | double
  | moment
  | binary
  | text
  | sequence
  | mapping
  | set
  | ordered
  | pairs
  /-- The sign that takes over the members of other mappings. -/
  | merge
  /-- The sign of a value that stands for its mapping. -/
  | standIn
  | unknown
deriving DecidableEq, Repr, Inhabited

namespace Kind

/-- What the tags of the standard start with. -/
def standardLead : Text := "tag:yaml.org,2002:".toList

/-- The names of the standard kinds. -/
def names : List (String × Kind) :=
  [("null", .null), ("bool", .boolean), ("int", .integer), ("float", .double),
    ("timestamp", .moment), ("binary", .binary), ("str", .text), ("seq", .sequence),
    ("map", .mapping), ("set", .set), ("omap", .ordered), ("pairs", .pairs), ("merge", .merge),
    ("value", .standIn)]

/-- The kind that a whole tag names. -/
def ofTag (tag : Text) : Kind :=
  ((names.find? fun (name, _) => tag == standardLead ++ name.toList).map Prod.snd).getD .unknown

def nullWords : List Text := ["", "~", "null", "Null", "NULL"].map String.toList

def truthWords : List Text := ["true", "True", "TRUE", "false", "False", "FALSE"].map String.toList

/-- The further words of the old version. -/
def oldTruthWords : List Text :=
  ["y", "Y", "yes", "Yes", "YES", "n", "N", "no", "No", "NO", "on", "On", "ON", "off", "Off",
    "OFF"].map String.toList

/-- Whether a text consists of some characters, and of at least one. -/
def isRun (f : Char → Bool) (s : Text) : Bool := !s.isEmpty && s.all f

/-- A digit or an underscore. -/
def isDigitOrMark (c : Char) : Bool := c.isDigit || c == '_'

/-- A digit to a base, or an underscore. -/
def isBaseDigitOrMark (base : Nat) (c : Char) : Bool := (Numeral.digit? base c).isSome || c == '_'

def isDigits (s : Text) : Bool := s.head?.any Char.isDigit && s.all isDigitOrMark

/-- Whether a text is one or two digits of a number to base sixty. -/
def isSixtieth : Text → Bool
  | [a] => a.isDigit
  | [a, b] => '0' ≤ a && a ≤ '5' && b.isDigit
  | _ => false

/-- Whether a text is several numbers to base sixty with colons between them. -/
def isSexagesimal (s : Text) : Bool :=
  match Text.splitWhen (· == ':') s with
  | first :: more => isDigits first && !more.isEmpty && more.all isSixtieth
  | [] => false

def isInteger (v : Version) (s : Text) : Bool :=
  let body := (Numeral.cutSign s).2
  s.head? != some '_' &&
    match body with
    | '0' :: 'b' :: digits => isRun (isBaseDigitOrMark 2) digits
    | '0' :: 'x' :: digits => isRun (isBaseDigitOrMark 16) digits
    | '0' :: 'o' :: digits => !v.isOld && isRun (isBaseDigitOrMark 8) digits
    | _ =>
      if v.isOld then
        isRun (isBaseDigitOrMark 8) body ||
          (body.head? != some '0' && (isDigits body || isSexagesimal body))
      else isRun isDigitOrMark body

def isExponent (signed : Bool) : Text → Bool
  | e :: s =>
    let digits := (Numeral.cutSign s).2
    e.toLower == 'e' && isRun Char.isDigit digits && (!signed || digits.length < s.length)
  | [] => false

/-- Whether a scalar looks like a number with a fraction. Without a digit before its point, its
exponent has to have a sign. -/
def isDouble (v : Version) (s : Text) : Bool :=
  let body := (Numeral.cutSign s).2
  let whole := body.takeWhile isDigitOrMark
  [".inf", ".Inf", ".INF"].any (·.toList == body) || [".nan", ".NaN", ".NAN"].any (·.toList == s) ||
    match body.drop whole.length with
    | '.' :: rest =>
      let places := rest.takeWhile isDigitOrMark
      let rest := rest.drop places.length
      if whole.isEmpty then
        !places.isEmpty && (rest.isEmpty || isExponent true rest) && (!v.isOld || body == s)
      else isDigits whole && (rest.isEmpty || isExponent false rest)
    | ':' :: _ =>
      v.isOld && isSexagesimal (body.takeWhile (· != '.')) &&
        match body.dropWhile (· != '.') with
        | _ :: places => places.all isDigitOrMark
        | [] => false
    | rest => isDigits whole && isExponent false rest

end Kind

end Offside.Yaml
