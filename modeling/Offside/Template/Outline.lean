import Offside.Template.Node

/-!
The open edge of a tree: the last node of a list, the last node in its body, and so on. A template
grows only there, because a line belongs to the nearest line above it that is less indented.
-/
namespace Offside

def onLast {α : Type} (f : α → α) : List α → List α
  | [] => []
  | [a] => [f a]
  | a :: b :: as => a :: onLast f (b :: as)

namespace Branch

def mapBody {α : Type} (f : List α → List α) (b : Branch α) : Branch α :=
  { b with body := f b.body }

end Branch

namespace Node

/-- Changes the list that deeper lines go to: the children of an element, the body of a loop, the
body of the last branch of a conditional. Other nodes have none. -/
def mapBody (f : List Node → List Node) : Node → Node
  | .element name classes children span => .element name classes (f children) span
  | .conditional branches span => .conditional (onLast (Branch.mapBody f) branches) span
  | .loop variableName iterable body span => .loop variableName iterable (f body) span
  | n => n

/-- The list that deeper lines go to, if the node has one. -/
def body? : Node → Option (List Node)
  | .element _ _ children _ => some children
  | .conditional branches _ => branches.getLast?.map Branch.body
  | .loop _ _ body _ => some body
  | _ => none

def addBranch (b : Branch Node) : Node → Node
  | .conditional branches span => .conditional (branches ++ [b]) span
  | n => n

end Node

namespace Outline

/-- Changes the list `depth` steps down the open edge. -/
def modifyAt (f : List Node → List Node) : Nat → List Node → List Node
  | 0, ns => f ns
  | depth + 1, ns => onLast (Node.mapBody (modifyAt f depth)) ns

/-- The list `depth` steps down the open edge. -/
def listAt? : Nat → List Node → Option (List Node)
  | 0, ns => some ns
  | depth + 1, ns => do listAt? depth (← (← ns.getLast?).body?)

/-- Adds a node at the end of the list `depth` steps down. -/
def add (depth : Nat) (n : Node) : List Node → List Node := modifyAt (· ++ [n]) depth

/-- Adds a branch to the conditional that ends the list `depth` steps down. -/
def addBranch (depth : Nat) (b : Branch Node) : List Node → List Node :=
  modifyAt (onLast (Node.addBranch b)) depth

end Outline

end Offside
