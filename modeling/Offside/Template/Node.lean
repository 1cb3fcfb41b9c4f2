import Offside.Span

/-!
Templates as trees. Spans say where a node was written; they take no part in comparing templates,
so `same` holds of two readings of differently laid out sources.
-/
namespace Offside

/-- A text stands on a line of its own, or on the line of the element or branch that holds it. -/
inductive Placement
  | inline
  | block
deriving DecidableEq, Repr, Inhabited

/-- A text is literal text with expressions in between. -/
inductive Part
  | literal (value : Text)
  | expression (value : Text) (span : Option Span)
deriving DecidableEq, Repr, Inhabited

/-- A branch of a conditional; the branch without a test is the last resort. -/
structure Branch (α : Type) where
  test : Option Text
  body : List α
  span : Option Span
deriving Repr, Inhabited

/-- A node of a template. A `foreign` node is of a kind that templates do not know; it may carry
the label of its kind. Reading a template yields none. -/
inductive Node
  | element (name : Text) (classes : List Text) (children : List Node) (span : Option Span)
  | text (parts : List Part) (placement : Placement) (span : Option Span)
  | expression (value : Text) (span : Option Span)
  | conditional (branches : List (Branch Node)) (span : Option Span)
  | loop (variableName iterable : Text) (body : List Node) (span : Option Span)
  | foreign (label : Option Text)
deriving Repr, Inhabited

structure PropsField where
  name : Text
  optional : Bool
  typeText : Text
  span : Option Span
deriving DecidableEq, Repr, Inhabited

structure PropsBlock where
  fields : List PropsField
  span : Option Span
deriving DecidableEq, Repr, Inhabited

/-- A name for a list of classes. -/
structure ClassAlias where
  name : Text
  classes : List Text
  span : Option Span
  nameSpan : Option Span
deriving DecidableEq, Repr, Inhabited

structure AliasBlock where
  aliases : List ClassAlias
  span : Option Span
deriving DecidableEq, Repr, Inhabited

/-- A whole template. `rawId` is the id as written and `id` the id it stands for. -/
structure Template where
  id : Option Text
  rawId : Option Text
  idSpan : Option Span
  props : Option PropsBlock
  aliases : Option AliasBlock
  children : List Node
  span : Option Span
deriving Repr, Inhabited

/-- Whether two lists agree place by place. -/
def sameAll {α : Type} (same : α → α → Bool) : List α → List α → Bool
  | [], [] => true
  | a :: as, b :: bs => same a b && sameAll same as bs
  | _, _ => false

/-- The same part, wherever it was written. -/
def Part.same : Part → Part → Bool
  | .literal v, .literal w => v == w
  | .expression v _, .expression w _ => v == w
  | _, _ => false

mutual

/-- The same node, wherever it was written. Two foreign nodes are the same if their labels are. -/
def Node.same : Node → Node → Bool
  | .element n cs ns _, .element n' cs' ns' _ => n == n' && cs == cs' && sameList ns ns'
  | .text ps p _, .text ps' p' _ => sameAll Part.same ps ps' && p == p'
  | .expression v _, .expression v' _ => v == v'
  | .conditional bs _, .conditional bs' _ => sameBranches bs bs'
  | .loop v i ns _, .loop v' i' ns' _ => v == v' && i == i' && sameList ns ns'
  | .foreign l, .foreign l' => l == l'
  | _, _ => false

def Node.sameList : List Node → List Node → Bool
  | [], [] => true
  | n :: ns, m :: ms => n.same m && sameList ns ms
  | _, _ => false

def Node.sameBranches : List (Branch Node) → List (Branch Node) → Bool
  | [], [] => true
  | b :: bs, c :: cs => sameBranch b c && sameBranches bs cs
  | _, _ => false

def Node.sameBranch : Branch Node → Branch Node → Bool
  | ⟨t, ns, _⟩, ⟨t', ns', _⟩ => t == t' && sameList ns ns'

end

mutual

/-- Whether a node, or a node inside it, is of a kind that templates do not know. -/
def Node.hasForeign : Node → Bool
  | .element _ _ ns _ => anyForeign ns
  | .text _ _ _ => false
  | .expression _ _ => false
  | .conditional bs _ => anyForeignBranch bs
  | .loop _ _ ns _ => anyForeign ns
  | .foreign _ => true

def Node.anyForeign : List Node → Bool
  | [] => false
  | n :: ns => n.hasForeign || anyForeign ns

def Node.anyForeignBranch : List (Branch Node) → Bool
  | [] => false
  | b :: bs => foreignBranch b || anyForeignBranch bs

def Node.foreignBranch : Branch Node → Bool
  | ⟨_, ns, _⟩ => anyForeign ns

end

def PropsField.same (f g : PropsField) : Bool :=
  f.name == g.name && f.optional == g.optional && f.typeText == g.typeText

def ClassAlias.same (a b : ClassAlias) : Bool := a.name == b.name && a.classes == b.classes

/-- Whether two optional values agree. -/
def sameOption {α : Type} (same : α → α → Bool) : Option α → Option α → Bool
  | none, none => true
  | some a, some b => same a b
  | _, _ => false

/-- The same template, however it was laid out. -/
def Template.same (t u : Template) : Bool :=
  t.id == u.id && t.rawId == u.rawId &&
    sameOption (fun p q => sameAll PropsField.same p.fields q.fields) t.props u.props &&
    sameOption (fun p q => sameAll ClassAlias.same p.aliases q.aliases) t.aliases u.aliases &&
    Node.sameList t.children u.children

end Offside
