import Offside.Ir.Node
import Offside.Options

/-!
Writing the neutral tree as a template. Attributes have no place in a template; they are written
behind the selector all the same, so that nothing is lost. A tag name with a dot would be read back
as a name with classes, which the writer warns about.
-/
namespace Offside.Ir

inductive TemplateError
  /-- Conditionals cannot be written. -/
  | conditional
  /-- The tree has a node that templates do not know. -/
  | foreignNode
  | indent (error : IndentError)
deriving DecidableEq, Repr

def TemplateError.message : TemplateError → Text
  | .conditional => "Conditional IR nodes are not supported in the Collie printer.".toList
  | .foreignNode => "Unsupported IR node: Unknown".toList
  | .indent e => e.message

def doubleBraced (text : Text) : Text := ['{', '{', ' '] ++ text ++ [' ', '}', '}']

/-- A text after its pipe. -/
def pipeText (o : Layout) (payload : Text) : Text :=
  if o.spaceAroundPipe || payload.head? == some ' ' then '|' :: ' ' :: payload
  else '|' :: payload

/-- An attribute as it is written behind a selector. -/
def Attribute.writeLoose : Attribute → Text
  | .named name none => name
  | .named name (some value) => name ++ '=' :: value
  | .expression text => doubleBraced text

/-- The tag with its classes and attributes. -/
def selector (o : Layout) (tag : Text) (classes : List Text) (attributes : List Attribute) :
    Text :=
  let lead : Text := if o.compactSelectors then ['.'] else [' ', '.']
  tag ++ classes.flatMap (lead ++ ·) ++ attributes.flatMap fun a => ' ' :: a.writeLoose

/-- The only child of an element, if it goes on the line of the element. -/
def onlyInline? (o : Layout) : List Node → Option Text
  | [.text value] => some (pipeText o value)
  | [.expression text] => some (pipeText o (doubleBraced text))
  | _ => none

/-- The warning about a tag name with a dot. -/
def dottedTagWarning (tag : Text) : Text :=
  "Tag name ".toList ++ tag ++ " contains a dot and will read back as ".toList ++
    tag.takeWhile (· != '.') ++
    " with classes; rename it before editing the template.".toList

mutual

def templateLines (o : Layout) (level : Nat) : Node → List Text
  | .element tag classes attributes children =>
    let line := indentation o.indentSize level ++ selector o tag classes attributes
    match onlyInline? o children with
    | some inline => [line ++ ' ' :: inline]
    | none => line :: templateLinesOf o (level + 1) children
  | .text value => [indentation o.indentSize level ++ pipeText o value]
  | .expression text => [indentation o.indentSize level ++ doubleBraced text]
  | .fragment children => templateLinesOf o level children
  | .conditional _ => []
  | .foreign => []

def templateLinesOf (o : Layout) (level : Nat) : List Node → List Text
  | [] => []
  | n :: ns => templateLines o level n ++ templateLinesOf o level ns

end

mutual

def warnings : Node → List Text
  | .element tag _ _ children =>
    (if tag.contains '.' then [dottedTagWarning tag] else []) ++ warningsOf children
  | .fragment children => warningsOf children
  | .text _ | .expression _ | .conditional _ | .foreign => []

def warningsOf : List Node → List Text
  | [] => []
  | n :: ns => warnings n ++ warningsOf ns

end

mutual

/-- The first node, in the order of the lines, that cannot be written. -/
def obstacle? : Node → Option TemplateError
  | .element _ _ _ children => obstacleOf? children
  | .fragment children => obstacleOf? children
  | .text _ | .expression _ => none
  | .conditional _ => some .conditional
  | .foreign => some .foreignNode

/-- The first of several nodes that cannot be written. -/
def obstacleOf? : List Node → Option TemplateError
  | [] => none
  | n :: ns => (obstacle? n).or (obstacleOf? ns)

end

/-- The text of a template for nodes; what cannot be written leaves nothing. -/
def writeTemplate (o : Layout) (ns : List Node) : Text :=
  Text.endLines (templateLinesOf o 0 ns)

/-- The text of a template for nodes that can all be written. The indent is looked at first. -/
def writeTemplate? (o : Layout) (ns : List Node) : Except TemplateError Text := do
  (checkIndent o.indentSize).mapError .indent
  match obstacleOf? ns with
  | some e => .error e
  | none => .ok (writeTemplate o ns)

end Offside.Ir
