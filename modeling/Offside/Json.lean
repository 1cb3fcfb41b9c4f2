import Offside.Number.Numeral

/-!
Data as a text for other programs to read: one line, a blank after each comma and colon, and the
members of an object in the order they were put in.
-/
namespace Offside

/-- Data without fractions. -/
inductive Json
  | null
  | boolean (value : Bool)
  | integer (value : Int)
  | text (value : Text)
  | list (items : List Json)
  | object (members : List (Text × Json))
deriving Repr, Inhabited

namespace Json

/-- A text, or null. -/
def ofText? : Option Text → Json
  | some s => text s
  | none => null

mutual

def isWritable : Json → Bool
  | integer n => Numeral.isWritable n
  | list items => areWritable items
  | object members => haveWritable members
  | null | boolean _ | text _ => true

def areWritable : List Json → Bool
  | [] => true
  | item :: items => item.isWritable && areWritable items

def haveWritable : List (Text × Json) → Bool
  | [] => true
  | (_, value) :: members => value.isWritable && haveWritable members

end

mutual

def write : Json → Text
  | null => "null".toList
  | boolean true => "true".toList
  | boolean false => "false".toList
  | integer n => Text.ofInt n
  | text s => Text.quote s
  | list items => '[' :: writeItems items ++ [']']
  | object members => '\x7b' :: writeMembers members ++ ['\x7d']

def writeItems : List Json → Text
  | [] => []
  | [item] => write item
  | item :: items => write item ++ ',' :: ' ' :: writeItems items

def writeMembers : List (Text × Json) → Text
  | [] => []
  | [(name, value)] => Text.quote name ++ ':' :: ' ' :: write value
  | (name, value) :: members =>
    Text.quote name ++ ':' :: ' ' :: write value ++ ',' :: ' ' :: writeMembers members

end

end Json

end Offside
