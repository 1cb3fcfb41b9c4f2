import Offside.Markup.Node

/-!
A selection of markup: elements, text and expressions side by side. It is read as the content of a
fragment that a function returns, so that it forms a program; the reader of programs is a parameter.
Places in a selection are counted in bytes there, and in lines and columns for the user.
-/
namespace Offside.Markup

inductive SelectionError
  | syntaxError
  | noContent
deriving DecidableEq, Repr

def SelectionError.message : SelectionError → Text
  | .syntaxError => "Unable to parse the selected JSX: unexpected syntax".toList
  | .noContent => "No JSX content detected in the selection.".toList

namespace Selection

def wrapperName : Text := "__CollieTemp".toList

def wrapperStart : Text := "const __CollieTemp = () => (<>".toList

def wrapperEnd : Text := "</>);".toList

/-- The program around a selection. -/
def wrap (selection : Text) : Text := wrapperStart ++ selection ++ wrapperEnd

mutual

/-- The node inside all parentheses around it. -/
def unwrap? : Node → Option Node
  | .mk .group _ _ ns => unwrapFirst? ns
  | n => some n

/-- The first node inside all parentheses around it. -/
def unwrapFirst? : List Node → Option Node
  | [] => none
  | n :: _ => unwrap? n

end

/-- The body of the function that a declarator gives a name to, if it is that name. -/
def declaredBody? (doc name : Text) (n : Node) : Option Node :=
  match n with
  | .mk .declarator _ _ (declared :: rest) =>
    match rest.getLast? with
    | some (.mk .arrow _ _ ns) => if declared.slice doc == name then ns.getLast? else none
    | _ => none
  | _ => none

/-- The content of a program around a selection. Blank text beside the elements is left out. -/
def content (doc : Text) (program : Node) : List Node :=
  match (program.walk.findSome? (declaredBody? doc wrapperName)).bind unwrap? with
  | none => []
  | some body =>
    if body.isFragment then
      body.content.filter fun n => !(n.kind == .text && (n.slice doc).all Text.isBlank)
    else if body.kind.isContent then [body]
    else []

/-- Reads a selection with a reader of programs, which gives no tree if the syntax is wrong. The
result is the text of the program around the selection, and the nodes of the selection. -/
def readWith (read? : Text → Option Node) (selection : Text) :
    Except SelectionError (Text × List Node) :=
  let doc := wrap selection
  match read? doc with
  | none => .error .syntaxError
  | some program =>
    match content doc program with
    | [] => .error .noContent
    | nodes => .ok (doc, nodes)

end Selection

/-- The number of characters that end at or before a byte. A byte inside a character belongs to the
place before it. -/
def charPosition (byte : Int) : Text → Nat
  | [] => 0
  | c :: s => if (c.utf8Size : Int) ≤ byte then charPosition (byte - c.utf8Size) s + 1 else 0

namespace Selection

/-- Line and column, from one, of the place where a byte of the program around the selection lies.
A place outside the selection is taken for its nearest end. -/
def location (selection : Text) (byte : Int) : Nat × Nat :=
  let place := charPosition byte (wrap selection) - wrapperStart.length
  let before := selection.take place
  (before.count '\n' + 1, (before.reverse.takeWhile (· != '\n')).length + 1)

/-- What the user reads about a location. -/
def describeLocation (selection : Text) (byte : Int) : Text :=
  let (line, column) := location selection byte
  "line ".toList ++ Text.ofNat line ++ ", column ".toList ++ Text.ofNat column

end Selection

end Offside.Markup
