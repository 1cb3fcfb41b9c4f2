import Offside.Ir.Node
import Offside.Markup.Reference
import Offside.Markup.Selection

/-!
From the tree of a text of markup to the neutral tree. Expressions stay text. Markup inside an
expression cannot stay text, so a comment takes its place and the user is warned.
-/
namespace Offside.Markup

/-- The neutral form of something, and the warnings about it. -/
structure Lowered (α : Type) where
  value : α
  warnings : List Text
deriving Repr

namespace Lowered

/-- What is lowered without a warning. -/
def plain {α : Type} (value : α) : Lowered α := ⟨value, []⟩

end Lowered

def previewLength : Nat := 80

/-- A text in which no comment ends. -/
def guardComment : Text → Text
  | [] => []
  | ['*'] => ['*']
  | '*' :: '/' :: s => '*' :: ' ' :: '/' :: guardComment s
  | c :: s => c :: guardComment s

/-- A text on one line, short enough to stand in a comment. -/
def preview (s : Text) : Text :=
  let line := guardComment (Text.squeeze s)
  if previewLength < line.length then line.take (previewLength - 1) ++ ['…'] else line

/-- A text between the marks of a comment. -/
def comment (s : Text) : Text := "/* ".toList ++ s ++ " */".toList

/-- What takes the place of a node with markup inside an expression. -/
def nestedPlaceholder (doc : Text) (n : Node) : Lowered Text :=
  let shown := preview (n.slice doc)
  ⟨comment ("Collie: nested JSX not converted: ".toList ++ shown),
    ["Nested JSX inside an expression was replaced with a placeholder: ".toList ++ shown]⟩

/-- What takes the place of a node that has no neutral form. -/
def unsupportedNode (n : Node) : Lowered Text :=
  ⟨comment ("Collie unsupported: ".toList ++ n.kind.label),
    ["Unsupported JSX node omitted: ".toList ++ n.kind.label]⟩

/-- What takes the place of an expression among attributes that is no spread. -/
def unsupportedAttribute (doc : Text) (n : Node) : Lowered Text :=
  ⟨comment ("Collie unsupported attribute: ".toList ++ preview (n.slice doc)),
    ["Unsupported JSX attribute omitted: ".toList ++ n.slice doc]⟩

/-- The text of an expression without its braces. -/
def innerText (doc : Text) (n : Node) : Text :=
  Text.trim ((n.slice doc).drop 1).dropLast

def lowerAttribute (doc : Text) (n : Node) : Lowered Ir.Attribute :=
  match n.children with
  | [] => .plain (.named [] none)
  | [name] => .plain (.named (name.slice doc) none)
  | name :: value :: _ =>
    let nested : Lowered Ir.Attribute :=
      let place := nestedPlaceholder doc n
      ⟨.expression place.value, place.warnings⟩
    if value.kind == .element || value.kind == .selfClosing then nested
    else if value.kind == .expression then
      if value.children.isEmpty then .plain (.named (name.slice doc) none)
      else if value.hasMarkup then nested
      else .plain (.named (name.slice doc) (some ('{' :: innerText doc value ++ ['}'])))
    else .plain (.named (name.slice doc) (some (value.slice doc)))

/-- An expression among the attributes of a tag. -/
def lowerSpread (doc : Text) (n : Node) : Lowered Ir.Attribute :=
  let place : Lowered Text :=
    match n.children with
    | first :: _ =>
      if first.kind == .spread then
        if n.hasMarkup then nestedPlaceholder doc n else .plain (first.slice doc)
      else unsupportedAttribute doc n
    | [] => unsupportedAttribute doc n
  ⟨.expression place.value, place.warnings⟩

/-- What one child of a tag adds to its attributes. -/
def lowerTagChild? (doc : Text) (n : Node) : Option (Lowered Ir.Attribute) :=
  if n.kind == .tagAttribute then some (lowerAttribute doc n)
  else if n.kind == .expression then some (lowerSpread doc n)
  else none

/-- The element whose tag has these children. Warnings about its content come before those about
its attributes. -/
def lowerElement (doc : Text) (tag : List Node) (children : Lowered (List Ir.Node)) :
    Lowered Ir.Node :=
  let attributes := tag.filterMap (lowerTagChild? doc)
  let (others, classes) := Ir.splitClasses (attributes.map Lowered.value)
  let name := ((tag.find? (·.kind.isTagName)).map (Node.slice doc)).getD []
  ⟨.ofParts name classes others children.value,
    children.warnings ++ attributes.flatMap Lowered.warnings⟩

/-- An expression that stands beside elements. -/
def lowerExpression (doc : Text) (n : Node) : Lowered (List Ir.Node) :=
  if n.children.isEmpty then .plain []
  else if n.hasMarkup then
    let place := nestedPlaceholder doc n
    ⟨[.expression place.value], place.warnings⟩
  else .plain [.expression (innerText doc n)]

/-- The text that a run of text and references from one place to another shows. -/
def lowerRun (doc : Text) : Option (Nat × Nat) → List Ir.Node
  | none => []
  | some (start, stop) =>
    match Text.squeeze (Reference.resolve (Text.slice doc start stop)) with
    | [] => []
    | shown => [.text shown]

mutual

def lowerNode (doc : Text) : Node → Lowered (List Ir.Node)
  | .mk .element start stop children =>
    let content := lowerNodes doc true none children
    let tag := ((Node.mk .element start stop children).opening?.map Node.children).getD []
    if (Node.mk .element start stop children).isFragment then
      ⟨[.fragment content.value], content.warnings⟩
    else
      let element := lowerElement doc tag content
      ⟨[element.value], element.warnings⟩
  | .mk .selfClosing _ _ children =>
    let element := lowerElement doc children (.plain [])
    ⟨[element.value], element.warnings⟩
  | .mk .expression start stop children => lowerExpression doc (.mk .expression start stop children)
  | n =>
    let place := unsupportedNode n
    ⟨[.expression place.value], place.warnings⟩

/-- The neutral form of nodes side by side. `run` is where the text before them started and where
it has come to. Inside an element, its tags are passed over. -/
def lowerNodes (doc : Text) (inside : Bool) (run : Option (Nat × Nat)) :
    List Node → Lowered (List Ir.Node)
  | [] => .plain (lowerRun doc run)
  | n :: ns =>
    if inside && n.kind.isTag then lowerNodes doc inside run ns
    else if n.kind.isTextual then
      lowerNodes doc inside (some ((run.map Prod.fst).getD n.start, n.stop)) ns
    else
      let first := lowerNode doc n
      let rest := lowerNodes doc inside none ns
      ⟨lowerRun doc run ++ first.value ++ rest.value, first.warnings ++ rest.warnings⟩

end

def lower (doc : Text) (nodes : List Node) : Lowered (List Ir.Node) :=
  lowerNodes doc false none nodes

/-- The nodes of a program that have one of some kinds, each before those inside it. -/
def Node.ofKinds (program : Node) (labels : List Text) : List Node :=
  program.walk.filter fun n => labels.contains n.kind.label

end Offside.Markup
