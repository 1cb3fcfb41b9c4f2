import Offside.Markup.Nested

/-!
Elements: tags with names and attributes, and what stands between an opening tag and a closing one.
The name of a closing tag need not be that of the opening one.
-/
namespace Offside.Markup.Tag

def nameNode (kind : Kind) (c stop : Cursor) : Node := .mk kind c.pos stop.pos []

/-- Reads the names behind points. -/
def readMembers (steps : Nat) : Reader (List Node) := fun c => do
  let (nodes, _, c') ← repeatStep step steps () c
  some (nodes, c')
where
  /-- Reads a point and a name. -/
  step (_ : Unit) (c : Cursor) : Option (Step Unit) :=
    match (skipOpenGap c).expectChar? '.' with
    | none => some (.done [] () c)
    | some c1 => do
      let c2 := skipOpenGap c1
      let (_, c3) ← readName c2
      some (.more [nameNode .propertyName c2 c3] () c3)

/-- Reads the name of a tag: a name with hyphens, names with points between them, or two names with
a colon. The flag tells whether types can follow. -/
def readTagName (steps : Nat) : Reader (Bool × Node) := fun c => do
  let (hyphens, c1) ← readHyphenName c
  match (skipOpenGap c1).expectChar? ':' with
  | some c2 => do
    let c3 := skipOpenGap c2
    let (_, c4) ← readHyphenName c3
    let parts := [nameNode .identifier c c1, nameNode .identifier c3 c4]
    some ((false, .mk .namespaceName c.pos c4.pos parts), c4)
  | none =>
    if hyphens then some ((false, nameNode .identifier c c1), c1)
    else do
      let (members, c2) ← readMembers steps c1
      if members.isEmpty then some ((true, nameNode .identifier c c1), c1)
      else some ((true, .mk .memberName c.pos c2.pos (nameNode .identifier c c1 :: members)), c2)

/-- Reads the name of an attribute, which may be two names with a colon. -/
def readAttributeName : Reader Node := fun c => do
  let (_, c1) ← readHyphenName c
  match (skipOpenGap c1).expectChar? ':' with
  | some c2 => do
    let c3 := skipOpenGap c2
    let (_, c4) ← readHyphenName c3
    let parts := [nameNode .identifier c c1, nameNode .identifier c3 c4]
    some (.mk .namespaceName c.pos c4.pos parts, c4)
  | none => some (nameNode .propertyName c c1, c1)

/-- Reads the value of an attribute: a string, an expression in braces, or an element. -/
def readValue (n : Nested) : Reader Node := fun c =>
  match c.rest with
  | x :: s =>
    if x == '"' || x == '\x27' then do
      let c1 ← readAttributeStringEnd x (c.pos + 1) 0 true s
      some (.mk .string c.pos c1.pos [], c1)
    else if x == '{' then n.braces c
    else if x == '<' then n.markup c
    else none
  | [] => none

def readAttribute (n : Nested) : Reader Node := fun c => do
  let (name, c1) ← readAttributeName c
  let (before, c2) ← openGap c1
  match c2.expectChar? '=' with
  | none => some (.mk .tagAttribute c.pos c1.pos [name], c1)
  | some c3 => do
    let (between, c4) ← openGap c3
    let (value, c5) ← readValue n c4
    some (.mk .tagAttribute c.pos c5.pos (name :: before ++ between ++ [value]), c5)

/-- Reads attributes up to the end of a tag. The flag tells whether the tag closes itself. -/
def readAttributes (n : Nested) (c : Cursor) : Option (List Node × Bool × Cursor) :=
  repeatStep step n.steps false c
where
  /-- Reads an attribute, or the end of the tag. -/
  step (_ : Bool) (c : Cursor) : Option (Step Bool) := do
    let (comments, c1) ← openGap c
    match c1.rest with
    | '>' :: _ => some (.done comments false (c1.skip 1))
    | '/' :: '>' :: _ => some (.done comments true (c1.skip 2))
    | '{' :: _ => do
      let (node, c2) ← n.braces c1
      some (.more (comments ++ [node]) false c2)
    | _ => do
      let (node, c2) ← readAttribute n c1
      some (.more (comments ++ [node]) false c2)

/-- Reads a closing tag, behind its slash. -/
def readClosingTag (steps : Nat) (start : Nat) : Reader Node := fun c => do
  let (before, c1) ← openGap c
  match c1.expectChar? '>' with
  | some c2 => some (.mk .closing start c2.pos before, c2)
  | none => do
    let ((_, name), c2) ← readTagName steps c1
    let (after, c3) ← openGap c2
    let c4 ← c3.expectChar? '>'
    some (.mk .closing start c4.pos (before ++ name :: after), c4)

/-- Reads what stands between tags, up to the closing tag and with it. -/
def readContent (n : Nested) : Reader (List Node) := fun c => do
  let (nodes, _, c') ← repeatStep step n.steps () c
  some (nodes, c')
where
  /-- Reads text, a character reference, a comment, an expression, an element or the closing
  tag. -/
  step (_ : Unit) (c : Cursor) : Option (Step Unit) :=
    match c.rest with
    | [] => none
    | '<' :: '/' :: _ => do
      let (tag, c1) ← readClosingTag n.steps c.pos (c.skip 2)
      some (.done [tag] () c1)
    | '<' :: '!' :: '-' :: '-' :: _ =>
      let c1 := c.skip (htmlLineLength c.rest)
      some (.more [.mk .htmlComment c.pos c1.pos []] () c1)
    | '<' :: _ => do
      let (node, c1) ← n.markup c
      some (.more [node] () c1)
    | '{' :: _ => do
      let (node, c1) ← n.braces c
      some (.more [node] () c1)
    | '&' :: _ => do
      let c1 ← readReference c
      some (.more [.mk .reference c.pos c1.pos []] () c1)
    | x :: _ =>
      if endsMarkupText x then none
      else
        let run := c.rest.takeWhile (!endsMarkupText ·)
        let c1 := c.skip run.length
        some (.more (if showsText false run then [.mk .text c.pos c1.pos []] else []) () c1)

/-- Reads the content and the closing tag of an element whose opening tag ends here. -/
def readElementEnd (n : Nested) (start : Nat) (opening : List Node) : Reader Node := fun c => do
  let (nodes, c1) ← readContent n c
  some (.mk .element start c1.pos (.mk .opening start c.pos opening :: nodes), c1)

/-- Reads an element or a fragment. A tag can do without a name, and then it has no attributes. -/
def read (n : Nested) : Reader Node := fun c => do
  let c1 ← c.expectChar? '<'
  let (before, c2) ← openGap c1
  match c2.rest with
  | '>' :: _ => readElementEnd n c.pos before (c2.skip 1)
  | '/' :: '>' :: _ =>
    let c3 := c2.skip 2
    some (.mk .selfClosing c.pos c3.pos before, c3)
  | _ => do
    let ((typed, name), c3) ← readTagName n.steps c2
    let (types, c4) :=
      if typed then
        match n.typeArguments (skipOpenGap c3) with
        | some (node, c4) => ([node], c4)
        | none => ([], c3)
      else ([], c3)
    let (attributes, closed, c5) ← readAttributes n c4
    let nodes := before ++ name :: types ++ attributes
    if closed then some (.mk .selfClosing c.pos c5.pos nodes, c5)
    else readElementEnd n c.pos nodes c5

end Offside.Markup.Tag
