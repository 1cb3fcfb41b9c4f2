import Offside.Options
import Offside.Template.Pipe

/-!
Writing a template. The text depends on the tree and the layout alone. A body that is one inline
text, one expression or one element without block children goes on the line of its branch.
-/
namespace Offside

inductive PrintError
  /-- The tree has a node that templates do not know. -/
  | foreignNode
  | indent (error : IndentError)
deriving DecidableEq, Repr

def PrintError.message : PrintError → Text
  | .foreignNode => "Unsupported node type Unknown".toList
  | .indent e => e.message

namespace Node

def writeExpression (value : Text) : Text := Pipe.writePart (.expression value none)

/-- The name of an element with its classes. -/
def writeSelector (o : Layout) (name : Text) (classes : List Text) : Text :=
  let lead : Text := if o.compactSelectors then ['.'] else [' ', '.']
  name ++ classes.flatMap (lead ++ ·)

/-- A body that goes on the line of its branch. -/
def inlineBody? (o : Layout) : List Node → Option Text
  | [.text parts .inline _] => some (Pipe.write o.spaceAroundPipe parts)
  | [.expression value _] => some (writeExpression value)
  | [.element name classes [] _] => some (writeSelector o name classes)
  | [.element name classes [.text parts .inline _] _] =>
    some (writeSelector o name classes ++ ' ' :: Pipe.write o.spaceAroundPipe parts)
  | _ => none

/-- The head of a branch. The first branch always has a test. -/
def writeHead (isFirst : Bool) (test : Option Text) : Text :=
  let between (keyword : Text) (t : Text) := keyword ++ [' ', '('] ++ t ++ [')']
  if isFirst then
    match test with
    | none | some [] => between ['@', 'i', 'f'] ['t', 'r', 'u', 'e']
    | some t => between ['@', 'i', 'f'] t
  else
    match test with
    | none => ['@', 'e', 'l', 's', 'e']
    | some t => between ['@', 'e', 'l', 's', 'e', 'I', 'f'] t

mutual

def lines (o : Layout) (level : Nat) : Node → List Text
  | .element name classes (.text parts .inline _ :: rest) _ =>
    (indentation o.indentSize level ++ writeSelector o name classes ++
      ' ' :: Pipe.write o.spaceAroundPipe parts) :: linesOf o (level + 1) rest
  | .element name classes children _ =>
    (indentation o.indentSize level ++ writeSelector o name classes) ::
      linesOf o (level + 1) children
  | .text parts _ _ => [indentation o.indentSize level ++ Pipe.write o.spaceAroundPipe parts]
  | .expression value _ => [indentation o.indentSize level ++ writeExpression value]
  | .conditional branches _ => branchLines o level true branches
  | .loop variableName iterable body _ =>
    (indentation o.indentSize level ++ ['@', 'f', 'o', 'r', ' '] ++ variableName ++
      [' ', 'i', 'n', ' '] ++ iterable) :: linesOf o (level + 1) body
  | .foreign _ => []

def linesOf (o : Layout) (level : Nat) : List Node → List Text
  | [] => []
  | n :: ns => n.lines o level ++ linesOf o level ns

def branchLines (o : Layout) (level : Nat) (isFirst : Bool) : List (Branch Node) → List Text
  | [] => []
  | b :: bs => linesOfBranch o level isFirst b ++ branchLines o level false bs

def linesOfBranch (o : Layout) (level : Nat) (isFirst : Bool) : Branch Node → List Text
  | ⟨test, body, _⟩ =>
    let head := indentation o.indentSize level ++ writeHead isFirst test
    match inlineBody? o body with
    | some inline => [head ++ ' ' :: inline]
    | none => head :: linesOf o (level + 1) body

end

end Node

def PropsBlock.lines (o : Layout) (p : PropsBlock) : List Text :=
  let separator : Text := if o.spacedProps then [':', ' '] else [':']
  let field (f : PropsField) := indentation o.indentSize 1 ++ f.name ++
    (if f.optional then ['?'] else []) ++ separator ++ f.typeText
  ['p', 'r', 'o', 'p', 's'] :: p.fields.map field

def AliasBlock.lines (o : Layout) (b : AliasBlock) : List Text :=
  let line (a : ClassAlias) := indentation o.indentSize 1 ++ a.name ++ [' ', '=', ' '] ++
    a.classes.flatMap ('.' :: ·)
  ['c', 'l', 'a', 's', 's', 'e', 's'] :: b.aliases.map line

namespace Template

/-- The id that is written: the one declared, or else the one it stands for. -/
def writtenId? (t : Template) : Option Text :=
  (t.rawId.filter (!·.isEmpty)).or (t.id.filter (!·.isEmpty))

/-- The sections of a template, each with its lines. -/
def sections (o : Layout) (t : Template) : List (List Text) :=
  (t.writtenId?.map fun id => [['#', 'i', 'd', ' '] ++ id]).toList ++
    (t.props.map (PropsBlock.lines o)).toList ++
    (t.aliases.map (AliasBlock.lines o)).toList ++
    (if t.children.isEmpty then [] else [Node.linesOf o 0 t.children])

/-- The lines of a template, with an empty line between sections. -/
def lines (o : Layout) (t : Template) : List Text := [([] : Text)].intercalate (t.sections o)

/-- The text of a template; foreign nodes leave nothing. -/
def write (o : Layout) (t : Template) : Text := Text.endLines (t.lines o)

/-- The text of a template that has no foreign nodes. The indent is looked at first. -/
def write? (o : Layout) (t : Template) : Except PrintError Text := do
  (checkIndent o.indentSize).mapError .indent
  if Node.anyForeign t.children then .error .foreignNode else .ok (t.write o)

end Template

end Offside
