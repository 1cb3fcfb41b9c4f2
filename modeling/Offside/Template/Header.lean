import Offside.Template.Node
import Offside.Diagnostic

/-!
The header of a template: its id, the fields of its props and the aliases of its classes.
-/
namespace Offside

/-- A letter or an underscore of ASCII. -/
def isIdentifierStart (c : Char) : Bool := c.isAlpha || c == '_'

/-- The part of the id that names the template: the ending `-collie` only marks it. -/
def logicalId (s : Text) : Text :=
  (Text.dropEnding? ['-', 'c', 'o', 'l', 'l', 'i', 'e'] s).getD s

namespace TemplateId

/-- A letter, then letters, digits, underscores and hyphens. -/
def isValid : Text → Bool
  | [] => false
  | c :: s => c.isAlpha && s.all fun d => Text.isAsciiWord d || d == '-'

/-- Reads what follows `#id`, at the mark of the line; the value is reported with its mark. -/
def read (m : Mark) (line : Text) : Except Diagnostic (Mark × Text) :=
  let rest := line.drop 3
  let value := Text.trim rest
  if isValid value then .ok (m.right (3 + Text.margin rest), value)
  else .error (m.diagnose .idValue line.length)

/-- The id that a declared value stands for. -/
def logical (value : Text) : Text :=
  match logicalId value with
  | [] => value
  | id => id

end TemplateId

/-- Cuts an identifier of ASCII letters, digits and underscores off the front. -/
def cutIdentifier? (s : Text) : Option (Text × Text) :=
  match s with
  | c :: _ =>
    if isIdentifierStart c then some (s.takeWhile Text.isAsciiWord, s.dropWhile Text.isAsciiWord)
    else none
  | [] => none

/-- Reads a field of the props block: a name, perhaps a question mark, a colon and a type. -/
def PropsField.read (m : Mark) (line : Text) : Except Diagnostic PropsField :=
  let form : Option (Text × Bool × Text) := do
    let (name, rest) ← cutIdentifier? line
    let (optional, rest) := match rest with
      | '?' :: r => (true, r)
      | r => (false, r)
    match Text.trimStart rest with
    | ':' :: r => some (name, optional, Text.trim r)
    | _ => none
  match form with
  | none => .error (m.diagnose .fieldForm line.length)
  | some (_, _, []) => .error (m.diagnose .fieldUntyped line.length)
  | some (name, optional, typeText) => .ok ⟨name, optional, typeText, some (m.span line.length)⟩

namespace ClassAlias

/-- The classes that the right side of an alias lists, perhaps after a leading dot. -/
def classes? (s : Text) : Option (List Text) :=
  let body := match s with
    | '.' :: r => r
    | _ => s
  let tokens := Text.splitWhen (· == '.') body
  if tokens.all fun t => !t.isEmpty && t.all fun c => Text.isAsciiWord c || c == '-' then
    some tokens
  else none

/-- Reads an alias: a name, an equals sign, and classes with a dot before each. -/
def read (m : Mark) (line : Text) : Except Diagnostic ClassAlias :=
  let form : Option (Text × Text) := do
    let (name, rest) ← cutIdentifier? line
    match Text.trimStart rest with
    | '=' :: r => some (name, Text.trim r)
    | _ => none
  match form with
  | none => .error (m.diagnose .aliasForm line.length)
  | some (name, right) =>
    match classes? right with
    | none => .error (m.diagnose .aliasClasses line.length)
    | some classes =>
      .ok ⟨name, classes, some (m.span line.length), some (m.span name.length)⟩

end ClassAlias

end Offside
