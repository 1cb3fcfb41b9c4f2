import Offside.Markup.Tag
import Offside.Markup.Expression

/-!
Programs: statements that end at a semicolon or a line, and the readers of all levels put together.
-/
namespace Offside.Markup

/-- The readers of the levels of nesting up to a depth. -/
def Nested.upTo (steps : Nat) : Nat → Nested
  | 0 => Nested.none
  | depth + 1 =>
    let inner := Nested.upTo steps depth
    { steps
      markup := Tag.read inner
      expression := Expression.read inner
      typeText := TypeText.read inner
      pattern := Expression.readPattern inner
      block := readBlock inner }

/-- The readers for a text. Whatever nests takes at least one character a level. -/
def Nested.ofText (s : Text) : Nested := Nested.upTo (s.length + 1) (s.length + 1)

namespace Program

/-- Reads the end of a statement: a semicolon, or a place where one may be left out. -/
def readStatementEnd : Reader (List Node) := fun c => do
  let (comments, c1) ← gap c
  match c1.rest with
  | [] => some (comments, c1)
  | ';' :: _ => some (comments, c1.skip 1)
  | '\x7d' :: _ => some (comments, c1)
  | _ =>
    if (c.rest.take (c1.pos - c.pos)).any isLineEnd then some (comments, c1) else none

/-- Reads a declared name with its type and its value. -/
def readDeclarator (n : Nested) : Reader Node := fun c => do
  let (names, c1) ← n.pattern c
  let c2 ← Expression.readTypeMark n c1
  let (value, c3) ← Expression.readDefault n c2
  some (.mk .declarator c.pos c3.pos (names ++ value), c3)

def readDeclarators (n : Nested) : Reader (List Node) := fun c => do
  let (first, c1) ← readDeclarator n c
  let (more, _, c2) ← repeatStep step n.steps () c1
  some (first :: more, c2)
where
  /-- Reads a comma and a declared name. -/
  step (_ : Unit) (c : Cursor) : Option (Step Unit) :=
    match Expression.signAfter? c "," with
    | none => some (.done [] () c)
    | some c1 => do
      let (node, c2) ← readDeclarator n (skipGap c1)
      some (.more [node] () c2)

def declarationWords : List Text := ["const", "let", "var"].map String.toList

def readStatement (n : Nested) : Reader (List Node) := fun c =>
  let word := wordAt c
  let behindWord := skipGap (c.skip word.length)
  if c.rest.head? == some ';' then some ([], c.skip 1)
  else if c.rest.head? == some '\x7b' then do
    let (node, c1) ← Expression.readBody n c
    some ([node], c1)
  else if declarationWords.contains word then do
    let (nodes, c1) ← readDeclarators n behindWord
    let (comments, c2) ← readStatementEnd c1
    some (nodes ++ comments, c2)
  else if word == "function".toList || word == "class".toList then do
    let (node, c1) ← Expression.readWord n true c
    some ([node], c1)
  else do
    let (node, c1) ← n.sequence true c
    let (comments, c2) ← readStatementEnd c1
    some (node :: comments, c2)

/-- Reads a whole text as a program. -/
def read? (s : Text) : Option Node :=
  let n := Nested.ofText s
  (repeatStep (step n) n.steps () (.ofText s)).map fun (nodes, _, c) =>
    .mk .program 0 c.pos nodes
where
  /-- Reads a statement, or the end. -/
  step (n : Nested) (_ : Unit) (c : Cursor) : Option (Step Unit) := do
    let (comments, c1) ← openGap c
    match c1.rest with
    | [] => some (.done comments () c1)
    | _ => do
      let (nodes, c2) ← readStatement n c1
      some (.more (comments ++ nodes) () c2)

end Program

end Offside.Markup
