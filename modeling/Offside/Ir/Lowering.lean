import Offside.Ir.Node
import Offside.Template.Node

/-!
From a template to the neutral tree. Aliases are resolved here. What the neutral tree has no node
for, the props block and the loops, leaves a comment in its place.
-/
namespace Offside

/-- The classes that each alias stands for, the latest declaration first. -/
abbrev AliasEnv := List (Text × List Text)

namespace AliasEnv

/-- The aliases that a classes block declares. -/
def ofBlock (b : Option AliasBlock) : AliasEnv :=
  match b with
  | none => []
  | some b => (b.aliases.map fun a => (a.name, a.classes)).reverse

/-- The alias that a class token names: a `$` and an identifier. A line feed after them counts for
nothing. -/
def reference? : Text → Option Text
  | '$' :: c :: s =>
    let name := if s.getLast? == some '\n' then c :: s.dropLast else c :: s
    if (c.isAlpha || c == '_') && name.all Text.isAsciiWord then some name else none
  | _ => none

/-- What a class token stands for: itself, or the classes of the alias it names. A reference that
names no alias stands for nothing. -/
def expandToken (env : AliasEnv) (token : Text) : List Text :=
  match token with
  | '$' :: _ => ((reference? token).bind fun name => List.lookup name env).getD []
  | _ => [token]

/-- What a list of class tokens stands for. -/
def expand (env : AliasEnv) (tokens : List Text) : List Text := tokens.flatMap env.expandToken

end AliasEnv

namespace Ir

/-- A comment that stands for something left out. -/
def unsupported (reason : Text) : Text :=
  "/* Collie unsupported: ".toList ++ reason ++ " */".toList

def propsComment (p : PropsBlock) : Text :=
  if p.fields.isEmpty then
    "/* Collie props block present. Add TypeScript props manually. */".toList
  else
    let field (f : PropsField) :=
      f.name ++ (if f.optional then ['?'] else []) ++ [':', ' '] ++ f.typeText
    "/* Collie props: ".toList ++ [',', ' '].intercalate (p.fields.map field) ++ " */".toList

def loopComment (variableName iterable : Text) : Text :=
  unsupported ("@for ".toList ++ variableName ++ " in ".toList ++ iterable ++
    " loop is not exported".toList)

/-- The comment that stands for a node that templates do not know. -/
def foreignComment (label : Option Text) : Text :=
  unsupported ("Unsupported Collie node: ".toList ++ label.getD "Unknown".toList)

/-- Puts literal text in front of nodes; two neighbouring texts become one, and no text is
empty. -/
def consText (v : Text) (ns : List Node) : List Node :=
  match v, ns with
  | [], _ => ns
  | _, .text w :: ns => .text (v ++ w) :: ns
  | _, _ => .text v :: ns

/-- The parts of a text in a row. -/
def ofPartList : List Part → List Node
  | [] => []
  | .literal v :: ps => consText v (ofPartList ps)
  | .expression v _ :: ps => .expression v :: ofPartList ps

mutual

def lower (env : AliasEnv) : Offside.Node → List Node
  | .element name classes children _ =>
    [Node.ofParts name (env.expand classes) [] (lowerList env children)]
  | .text parts _ _ => ofPartList parts
  | .expression value _ => [.expression value]
  | .conditional branches _ => [.conditional (lowerBranches env branches)]
  | .loop variableName iterable _ _ => [.expression (loopComment variableName iterable)]
  | .foreign label => [.expression (foreignComment label)]

def lowerList (env : AliasEnv) : List Offside.Node → List Node
  | [] => []
  | n :: ns => lower env n ++ lowerList env ns

def lowerBranches (env : AliasEnv) : List (Offside.Branch Offside.Node) → List (Branch Node)
  | [] => []
  | b :: bs => lowerBranch env b :: lowerBranches env bs

def lowerBranch (env : AliasEnv) : Offside.Branch Offside.Node → Branch Node
  | ⟨test, body, _⟩ => ⟨test, lowerList env body⟩

end

/-- The neutral tree of a template; a comment for its props comes first. -/
def ofTemplate (t : Template) : List Node :=
  (t.props.map fun p => .expression (propsComment p)).toList ++
    lowerList (AliasEnv.ofBlock t.aliases) t.children

end Ir

end Offside
