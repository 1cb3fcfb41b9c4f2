import Offside.Ir.Node
import Offside.Options
import Offside.Text.Literal

/-!
Writing markup. Expressions, attribute values and tests are written as they are stored. Text is
written as it is where markup reads it as text, and else as a quoted text between braces.
-/
namespace Offside.Ir

inductive MarkupError
  /-- The tree has a node that markup does not know. -/
  | foreignNode
  | indent (error : IndentError)
deriving DecidableEq, Repr

def MarkupError.message : MarkupError → Text
  | .foreignNode => "Unsupported IR node for markup printing: Unknown".toList
  | .indent e => e.message

def quotedText (value : Text) : Text := '{' :: Text.quote value ++ ['}']

/-- Characters that markup gives a meaning of its own, and those that end a line. -/
def isMarkupSpecial (c : Char) : Bool :=
  c == '<' || c == '>' || c == '&' || c == '{' || c == '}' || c == '\r' || c == '\n'

/-- Whether a text can stand in a line of markup as it is. The line feed at its very end, if there
is one, is not looked at. -/
def isPlain (value : Text) : Bool :=
  let body := if value.getLast? == some '\n' then value.dropLast else value
  !body.isEmpty && !body.any isMarkupSpecial

/-- A text on a line of its own. Blanks at its ends would be lost, so they ask for quotes. -/
def markupText (value : Text) : Text :=
  if value.isEmpty then []
  else if isPlain value && value == Text.trim value then value
  else quotedText value

/-- A text within a line. -/
def inlineText (value : Text) : Text :=
  if value.isEmpty then [] else if isPlain value then value else quotedText value

def braced (text : Text) : Text := '{' :: text ++ ['}']

def Attribute.write : Attribute → Text
  | .named name none => name
  | .named name (some value) => name ++ '=' :: value
  | .expression text => braced text

/-- The attributes of an opening tag, the classes first, each after a space. -/
def writeAttributes (classes : List Text) (attributes : List Attribute) : Text :=
  let className : List Text :=
    if classes.isEmpty then []
    else [['c', 'l', 'a', 's', 's', 'N', 'a', 'm', 'e', '='] ++
      Text.quote ([' '].intercalate classes)]
  (className ++ attributes.map Attribute.write).flatMap (' ' :: ·)

/-- A child that can share a line with its parent. -/
def inlineChild? : Node → Option Text
  | .text value => some (inlineText value)
  | .expression text => some (braced text)
  | _ => none

/-- The children of an element on one line, if they are texts and expressions that show
something. -/
def inlineRun? (children : List Node) : Option Text := do
  let parts ← children.mapM inlineChild?
  if parts.all (·.isEmpty) then none else some parts.flatten

/-- The test of a branch; an empty one is none. -/
def Branch.guard? {α : Type} (b : Branch α) : Option Text := b.test.filter (!·.isEmpty)

/-- The test of the only branch. -/
def onlyGuard? {α : Type} : List (Branch α) → Option Text
  | [b] => b.guard?
  | _ => none

mutual

/-- The lines of a node at a level. One guarded branch is joined to its test with `&&`; more
branches become a chain of choices. -/
def markupLines (size : Int) (level : Nat) : Node → List Text
  | .element tag classes attributes children =>
    let margin := indentation size level
    let opening := '<' :: tag ++ writeAttributes classes attributes
    let closing := ['<', '/'] ++ tag ++ ['>']
    match children with
    | [] => [margin ++ opening ++ [' ', '/', '>']]
    | _ =>
      match inlineRun? children with
      | some run => [margin ++ opening ++ ['>'] ++ run ++ closing]
      | none =>
        (margin ++ opening ++ ['>']) :: markupLinesOf size (level + 1) children ++
          [margin ++ closing]
  | .text value => [indentation size level ++ markupText value]
  | .expression text => [indentation size level ++ braced text]
  | .fragment children =>
    let margin := indentation size level
    match children with
    | [] => [margin ++ ['<', '>', '<', '/', '>']]
    | _ => (margin ++ ['<', '>']) :: markupLinesOf size (level + 1) children ++
        [margin ++ ['<', '/', '>']]
  | .conditional branches =>
    let margin := indentation size level
    match branches with
    | [] => [margin ++ ['{', 'n', 'u', 'l', 'l', '}']]
    | _ =>
      match onlyGuard? branches with
      | some test =>
        (margin ++ '{' :: test ++ [' ', '&', '&', ' ', '(']) ::
          firstBodyLines size (level + 1) branches ++ [margin ++ [')', '}']]
      | none => (margin ++ ['{']) :: choiceLines size level false branches ++ [margin ++ ['}']]
  | .foreign => []

def markupLinesOf (size : Int) (level : Nat) : List Node → List Text
  | [] => []
  | n :: ns => markupLines size level n ++ markupLinesOf size level ns

/-- The choices between branches. After a test (`tested`), the next one is an alternative; if the
last branch has a test too, nothing is the last alternative. -/
def choiceLines (size : Int) (level : Nat) (tested : Bool) : List (Branch Node) → List Text
  | [] => []
  | b :: bs =>
    let inner := indentation size (level + 1)
    let lead : Text := if tested then [':', ' '] else []
    match b.guard? with
    | some test =>
      (inner ++ lead ++ test ++ [' ', '?', ' ', '(']) :: bodyLines size (level + 2) b ++
        [inner ++ [')']] ++
        (if bs.isEmpty then [inner ++ [':', ' ', 'n', 'u', 'l', 'l']]
          else choiceLines size level true bs)
    | none =>
      (inner ++ [':', ' ', '(']) :: bodyLines size (level + 2) b ++ [inner ++ [')']] ++
        choiceLines size level tested bs

/-- The lines of the body of the first branch. -/
def firstBodyLines (size : Int) (level : Nat) : List (Branch Node) → List Text
  | [] => []
  | b :: _ => bodyLines size level b

def bodyLines (size : Int) (level : Nat) : Branch Node → List Text
  | ⟨_, []⟩ => [indentation size level ++ ['n', 'u', 'l', 'l']]
  | ⟨_, n :: ns⟩ => markupLines size level n ++ markupLinesOf size level ns

end

mutual

def hasForeign : Node → Bool
  | .element _ _ _ children => anyForeign children
  | .text _ => false
  | .expression _ => false
  | .fragment children => anyForeign children
  | .conditional branches => anyForeignBranch branches
  | .foreign => true

def anyForeign : List Node → Bool
  | [] => false
  | n :: ns => hasForeign n || anyForeign ns

def anyForeignBranch : List (Branch Node) → Bool
  | [] => false
  | b :: bs => foreignBranch b || anyForeignBranch bs

def foreignBranch : Branch Node → Bool
  | ⟨_, children⟩ => anyForeign children

end

/-- The lines of markup for nodes; more than one node is put into a fragment. -/
def markupDocument (size : Int) : List Node → List Text
  | [] => []
  | [n] => markupLines size 0 n
  | ns => ['<', '>'] :: markupLinesOf size 1 ns ++ [['<', '/', '>']]

def writeMarkup (size : Int) (ns : List Node) : Text :=
  Text.unlines (markupDocument size ns) ++ ['\n']

/-- The text of markup for nodes without foreign ones. The indent is looked at first. -/
def writeMarkup? (size : Int) (ns : List Node) : Except MarkupError Text := do
  (checkIndent size).mapError .indent
  if anyForeign ns then .error .foreignNode else .ok (writeMarkup size ns)

end Offside.Ir
