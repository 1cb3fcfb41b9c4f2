import Offside.Data.Calendar
import Offside.Number.Numeral

/-!
The versions of the notation of settings, which differ in what plain scalars mean and in where a
colon ends one, and what can be wrong with a text of settings: its form, or a scalar that does not
have the value which its form or its tag announces, or a key that cannot be one.
-/
namespace Offside.Yaml

structure Version where
  major : Nat
  minor : Nat
deriving DecidableEq, Repr, Inhabited

namespace Version

/-- The version of a text that says none. -/
def current : Version := ⟨1, 2⟩

/-- The version before it, with words for truth values and numbers to base sixty. -/
def old : Version := ⟨1, 1⟩

def isOld (v : Version) : Bool := v == old

def isNewer (v : Version) : Bool :=
  old.major < v.major || (v.major == old.major && old.minor < v.minor)

end Version

/-- Why a text holds no data. -/
inductive Fault
  /-- It breaks the rules of the notation. -/
  | malformed
  /-- An escape asks for a character by a number that no character has. -/
  | noCharacter (number : Nat)
  /-- Plain scalars have no meaning in this version of the notation. -/
  | unknownVersion
  | noTruthWord (text : Text)
  /-- Nothing stands where a number has to. -/
  | emptyNumber
  | noInteger (error : Numeral.Error)
  | noDouble (text : Text)
  /-- A number has more than one exponent. -/
  | exponents
  | calendar (error : Data.CalendarError)
  /-- A collection cannot be a key, nor can what holds it. -/
  | unhashable (shape : Text)
  /-- A mapping whose order counts has a key twice. -/
  | repeatedKey
deriving DecidableEq, Repr

namespace Fault

def message : Fault → Text
  | malformed => "invalid YAML".toList
  | noCharacter _ => "chr() arg not in range(0x110000)".toList
  | unknownVersion => "unknown version".toList
  | noTruthWord s => s.map Char.toLower
  | emptyNumber => "string index out of range".toList
  | noInteger e => e.message
  | noDouble s => "could not convert string to float: ".toList ++ Text.literal s
  | exponents => "too many values to unpack (expected 2)".toList
  | calendar e => e.message
  | unhashable shape => "unhashable type: ".toList ++ Text.literal shape
  | repeatedKey => "repeated key".toList

end Fault

/-- The outcome of reading something that breaks the rules of the notation. -/
def malformed {α : Type} : Except Fault α := .error .malformed

end Offside.Yaml
