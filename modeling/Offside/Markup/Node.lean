import Offside.Text.Basic

/-!
The tree of a piece of markup within a script. A node knows its kind, where it starts and stops in
the text, and its children; punctuation has no nodes of its own.
-/
namespace Offside.Markup

/-- The kinds of nodes. What a script says outside markup is kept only as far as the markup in it
has to be found. -/
inductive Kind
  | program
  | element
  | selfClosing
  | opening
  | closing
  | text
  | reference
  | expression
  | tagAttribute
  | spread
  | comment
  /-- A comment that starts with one of the marks of a comment in a document. -/
  | htmlComment
  | identifier
  | memberName
  | namespaceName
  | propertyName
  | string
  | typeArguments
  /-- An expression in parentheses. -/
  | group
  /-- A function with an arrow; its last child is its body. -/
  | arrow
  /-- A declared name, followed by its value. -/
  | declarator
  /-- A node of another kind. -/
  | other (label : Text)
deriving DecidableEq, Repr, Inhabited

namespace Kind

def label : Kind → Text
  | program => "program".toList
  | element => "jsx_element".toList
  | selfClosing => "jsx_self_closing_element".toList
  | opening => "jsx_opening_element".toList
  | closing => "jsx_closing_element".toList
  | text => "jsx_text".toList
  | reference => "html_character_reference".toList
  | expression => "jsx_expression".toList
  | tagAttribute => "jsx_attribute".toList
  | spread => "spread_element".toList
  | comment => "comment".toList
  | htmlComment => "html_comment".toList
  | identifier => "identifier".toList
  | memberName => "member_expression".toList
  | namespaceName => "jsx_namespace_name".toList
  | propertyName => "property_identifier".toList
  | string => "string".toList
  | typeArguments => "type_arguments".toList
  | group => "parenthesized_expression".toList
  | arrow => "arrow_function".toList
  | declarator => "variable_declarator".toList
  | other label => label

/-- Expressions and statements that need no kind of their own. -/
def script : Kind := other "expression".toList

/-- What a run of text consists of. -/
def isTextual : Kind → Bool
  | text | reference => true
  | _ => false

def isMarkup : Kind → Bool
  | element | selfClosing | expression => true
  | _ => false

/-- What can be the content of a selection. -/
def isContent : Kind → Bool
  | element | selfClosing | expression | text | reference => true
  | _ => false

def isTagName : Kind → Bool
  | identifier | memberName | namespaceName => true
  | _ => false

def isTag : Kind → Bool
  | opening | closing => true
  | _ => false

end Kind

/-- A node from `start` up to `stop`. -/
inductive Node
  | mk (kind : Kind) (start stop : Nat) (children : List Node)
deriving Repr, Inhabited

namespace Node

def kind : Node → Kind
  | mk k _ _ _ => k

def start : Node → Nat
  | mk _ a _ _ => a

def stop : Node → Nat
  | mk _ _ b _ => b

def children : Node → List Node
  | mk _ _ _ ns => ns

/-- What the node says, in the text it was read from. -/
def slice (doc : Text) (n : Node) : Text := Text.slice doc n.start n.stop

def tagName? (n : Node) : Option Node := n.children.find? (·.kind.isTagName)

def opening? (n : Node) : Option Node := n.children.find? (·.kind == .opening)

/-- A fragment is an element whose opening tag has no name. -/
def isFragment (n : Node) : Bool :=
  n.kind == .element && n.opening?.any (·.tagName?.isNone)

/-- The children of an element between its tags. -/
def content (n : Node) : List Node := n.children.filter (!·.kind.isTag)

mutual

/-- The node and all nodes inside it, each before the nodes inside it. -/
def walk : Node → List Node
  | mk k a b ns => mk k a b ns :: walkList ns

/-- All nodes in a list of nodes. -/
def walkList : List Node → List Node
  | [] => []
  | n :: ns => walk n ++ walkList ns

end

def hasMarkup (n : Node) : Bool := (walkList n.children).any (·.kind.isMarkup)

end Node

end Offside.Markup
