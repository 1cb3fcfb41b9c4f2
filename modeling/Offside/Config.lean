import Offside.Data.Shown
import Offside.Options

/-!
Settings from the data of a configuration file. Every value is checked; the first fault is reported
with the path of the key that has it, unless the report would show a number that cannot be written.
-/
namespace Offside

open Data

/-- What is wrong with a value of a configuration. -/
inductive ConfigFault
  | unknownKey (key : Value)
  | noMapping (got : Value)
  | noBoolean (got : Value)
  | noInteger (got : Value)
  | negative (got : Int)
  | unknownTarget (got : Value)
deriving Repr

/-- A fault and where it is. -/
structure ConfigError where
  path : Text
  fault : ConfigFault
deriving Repr

namespace ConfigFault

/-- What the user reads about a fault. -/
def message : ConfigFault → Text
  | unknownKey _ => "unknown key".toList
  | noMapping v => "expected mapping, got ".toList ++ v.kindName
  | noBoolean v => "expected bool, got ".toList ++ v.kindName
  | noInteger v => "expected int, got ".toList ++ v.kindName
  | negative n => "expected a non-negative int, got ".toList ++ Text.ofInt n
  | unknownTarget v => "expected one of jsx, tsx, got ".toList ++ v.literal

/-- Whether a fault can be reported: the report of some shows the value or the key that is wrong. -/
def isTellable : ConfigFault → Bool
  | unknownKey v | unknownTarget v => v.isShowable
  | negative n => (Value.integer n).isShowable
  | noMapping _ | noBoolean _ | noInteger _ => true

end ConfigFault

namespace ConfigError

def message (e : ConfigError) : Text := e.path ++ ": ".toList ++ e.fault.message

/-- What the user reads, if the fault can be reported. -/
def message? (e : ConfigError) : Option Text := if e.fault.isTellable then some e.message else none

end ConfigError

namespace Config

/-- A key within a part of the configuration. -/
def pathOf (part : Text) (key : Value) : Text := part ++ '.' :: key.shown

def indentKey : Text := "indent_size".toList

def formatKeys : List Text :=
  ["indent_size", "prefer_compact_selectors", "space_around_pipe", "normalize_props_spacing"].map
    String.toList

def exportKeys : List Text := ["target", "indent_size"].map String.toList

def rootKeys : List Text := ["format", "export"].map String.toList

def isKey (names : List Text) : Value → Bool
  | .text s => names.contains s
  | _ => false

/-- Checks the keys of a mapping; `path` says where a key is. -/
def checkKeys (names : List Text) (path : Value → Text) (members : List (Value × Value)) :
    Except ConfigError Unit :=
  match members.find? (!isKey names ·.1) with
  | some (key, _) => .error ⟨path key, .unknownKey key⟩
  | none => .ok ()

/-- A whole number that is not negative. -/
def readIndent (path : Text) : Value → Except ConfigError Int
  | .integer n => if n < 0 then .error ⟨path, .negative n⟩ else .ok n
  | v => .error ⟨path, .noInteger v⟩

/-- A truth value. -/
def readFlag (path : Text) : Value → Except ConfigError Bool
  | .boolean b => .ok b
  | v => .error ⟨path, .noBoolean v⟩

/-- A flavour of markup, in letters of either case. -/
def readTarget (path : Text) (v : Value) : Except ConfigError Target :=
  match v with
  | .text s =>
    let lower := s.map Char.toLower
    if lower == "jsx".toList then .ok .jsx
    else if lower == "tsx".toList then .ok .tsx
    else .error ⟨path, .unknownTarget v⟩
  | _ => .error ⟨path, .unknownTarget v⟩

def setFormat (o : Layout) (key : Text) (path : Text) (v : Value) : Except ConfigError Layout :=
  if key == indentKey then (readIndent path v).map fun n => { o with indentSize := n }
  else if key == "prefer_compact_selectors".toList then
    (readFlag path v).map fun b => { o with compactSelectors := b }
  else if key == "space_around_pipe".toList then
    (readFlag path v).map fun b => { o with spaceAroundPipe := b }
  else if key == "normalize_props_spacing".toList then
    (readFlag path v).map fun b => { o with spacedProps := b }
  else .error ⟨path, .unknownKey (.text key)⟩

def setExport (o : ExportOptions) (key : Text) (path : Text) (v : Value) :
    Except ConfigError ExportOptions :=
  if key == indentKey then (readIndent path v).map fun n => { o with indentSize := n }
  else if key == "target".toList then (readTarget path v).map fun t => { o with target := t }
  else .error ⟨path, .unknownKey (.text key)⟩

/-- Sets what the members of a mapping say, one after the other. -/
def setAll {α : Type} (set : α → Text → Text → Value → Except ConfigError α) (part : Text) :
    α → List (Value × Value) → Except ConfigError α
  | o, [] => .ok o
  | o, (key, v) :: members => do
    let o ← set o key.shown (pathOf part key) v
    setAll set part o members

/-- Reads a part of the configuration. All its keys are checked before any of its values. -/
def readPart {α : Type} (set : α → Text → Text → Value → Except ConfigError α) (names : List Text)
    (part : Text) (default : α) : Option Value → Except ConfigError α
  | none => .ok default
  | some .null => .ok default
  | some v =>
    match v.members? with
    | none => .error ⟨part, .noMapping v⟩
    | some members => do
      checkKeys names (pathOf part) members
      setAll set part default members

def valueOf? (name : Text) (members : List (Value × Value)) : Option Value :=
  (members.find? fun (key, _) => isKey [name] key).map Prod.snd

/-- Settings from data. -/
def ofValue (v : Value) : Except ConfigError Settings :=
  match v.members? with
  | none => .error ⟨"<root>".toList, .noMapping v⟩
  | some members => do
    checkKeys rootKeys Value.shown members
    let format ← readPart setFormat formatKeys "format".toList {} (valueOf? "format".toList members)
    let exporting ←
      readPart setExport exportKeys "export".toList {} (valueOf? "export".toList members)
    return ⟨format, exporting⟩

end Config

end Offside
