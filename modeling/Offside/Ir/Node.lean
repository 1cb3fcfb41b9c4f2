import Offside.Text.Basic

/-!
The neutral tree between templates and markup. It holds no places in a source. An element is made
with `Ir.Node.ofParts`, which puts its classes in order.
-/
namespace Offside.Ir

/-- What an opening tag carries beside its classes: an attribute, bare or with the text of its
value, or an expression that stands among the attributes. -/
inductive Attribute
  | named (name : Text) (value : Option Text)
  | expression (text : Text)
deriving DecidableEq, Repr, Inhabited

structure Branch (α : Type) where
  test : Option Text
  children : List α
deriving Repr, Inhabited

/-- A node of the neutral tree. A `foreign` node is of a kind that no writer knows. -/
inductive Node
  | element (tag : Text) (classes : List Text) (attributes : List Attribute)
      (children : List Node)
  | text (value : Text)
  | expression (text : Text)
  | fragment (children : List Node)
  | conditional (branches : List (Branch Node))
  | foreign
deriving Repr, Inhabited

/-- Classes without the blanks around them, and without those that are blank. -/
def normalizeClasses (classes : List Text) : List Text :=
  (classes.map Text.trim).filter (!·.isEmpty)

/-- An element whose classes are in order. -/
def Node.ofParts (tag : Text) (classes : List Text) (attributes : List Attribute)
    (children : List Node) : Node :=
  .element tag (normalizeClasses classes) attributes children

/-- What stands between two equal quotes, of any of the three sorts. -/
def unquote? : Text → Option Text
  | q :: c :: s =>
    if (q == '"' || q == '\x27' || q == '\x60') && (c :: s).getLast? == some q then
      some (c :: s).dropLast
    else none
  | _ => none

/-- The classes in the value of an attribute, if it is a literal with at least one. -/
def classTokens? (value : Text) : Option (List Text) :=
  match (unquote? value).map Text.words with
  | some (w :: ws) => some (w :: ws)
  | _ => none

/-- The classes that an attribute lists. -/
def Attribute.classes? : Attribute → Option (List Text)
  | .named name (some value) =>
    if name == ['c', 'l', 'a', 's', 's', 'N', 'a', 'm', 'e'] then classTokens? value else none
  | _ => none

/-- Takes the attributes that list classes out of the attributes. -/
def splitClasses (attributes : List Attribute) : List Attribute × List Text :=
  (attributes.filter (·.classes?.isNone), attributes.flatMap fun a => a.classes?.getD [])

end Offside.Ir
