import Offside.Markup.Cursor

/-!
How readers of nested things are put together. A reader of one level gets the readers of the levels
below it, so that it needs no recursion of its own.
-/
namespace Offside.Markup

/-- What reads something at a cursor, and goes behind it. -/
abbrev Reader (α : Type) := Cursor → Option (α × Cursor)

/-- The readers of what nests. All start at the first character of what they read. -/
structure Nested where
  /-- How often a reader can repeat a step; more than any text it reads has characters. -/
  steps : Nat
  /-- An element. -/
  markup : Reader Node
  /-- An expression without a comma. The flag tells whether a function with an arrow may say the
  type of its result. -/
  expression : Bool → Reader Node
  /-- A type. -/
  typeText : Reader (List Node)
  /-- What a value is bound to: a name, or names in brackets. -/
  pattern : Reader (List Node)
  /-- Words in any order, up to a closing bracket that has no opening one. -/
  block : Reader (List Node)

/-- No readers at all. -/
def Nested.none : Nested where
  steps := 0
  markup _ := Option.none
  expression _ _ := Option.none
  typeText _ := Option.none
  pattern _ := Option.none
  block _ := Option.none

/-- What a step of a repeated reader comes to. -/
inductive Step (σ : Type)
  | more (nodes : List Node) (state : σ) (next : Cursor)
  | done (nodes : List Node) (state : σ) (next : Cursor)

/-- Repeats a step until it is done, and puts the nodes of all steps together. -/
def repeatStep {σ : Type} (step : σ → Cursor → Option (Step σ)) :
    Nat → σ → Cursor → Option (List Node × σ × Cursor)
  | 0, _, _ => none
  | steps + 1, state, c =>
    match step state c with
    | none => none
    | some (.done nodes state' c') => some (nodes, state', c')
    | some (.more nodes state' c') =>
      match repeatStep step steps state' c' with
      | none => none
      | some (rest, last) => some (nodes ++ rest, last)

/-- Reads the items of a list that is already open, up to its closing character. Items are set
apart by commas, and one may follow the last of them. In a `sparse` list items can be left out. -/
def readItems (steps : Nat) (sparse : Bool) (item : Reader (List Node)) (close : Char) :
    Reader (List Node) :=
  fun c => do
    let (nodes, _, c') ← repeatStep step steps false c
    some (nodes, c')
where
  /-- Reads a comma, the end, or an item that does not follow another one directly. -/
  step (afterItem : Bool) (c : Cursor) : Option (Step Bool) := do
    let (comments, c1) ← if afterItem then gap c else openGap c
    match c1.rest with
    | [] => none
    | x :: _ =>
      if x == close then some (.done comments false (c1.skip 1))
      else if x == ',' then
        if sparse || afterItem then some (.more comments false (c1.skip 1)) else none
      else if afterItem then none
      else do
        let (nodes, c2) ← item c1
        some (.more (comments ++ nodes) true c2)

/-- Reads what must stand between a gap and a closing character. -/
def readClosing (close : Char) : Reader (List Node) := fun c => do
  let (comments, c1) ← gap c
  let c2 ← c1.expectChar? close
  some (comments, c2)

namespace Nested

/-- Reads expressions with commas between them. One alone is the node itself. -/
def sequence (n : Nested) (typed : Bool) : Reader Node := fun c => do
  let (first, c1) ← n.expression typed c
  let (more, _, c2) ← repeatStep step n.steps () c1
  if more.isEmpty then some (first, c2)
  else some (.mk .script c.pos c2.pos (first :: more), c2)
where
  /-- Reads a comma and the expression behind it. -/
  step (_ : Unit) (c : Cursor) : Option (Step Unit) :=
    match gap c with
    | Option.none => some (.done [] () c)
    | some (before, c1) =>
      match c1.expectChar? ',' with
      | Option.none => some (.done [] () c)
      | some c2 => do
        let (between, c3) ← openGap c2
        let (node, c4) ← n.expression typed c3
        some (.more (before ++ between ++ [node]) () c4)

/-- Reads a spread at its dots. -/
def spread (n : Nested) : Reader Node := fun c => do
  let c1 ← c.expect? "...".toList
  let (comments, c2) ← openGap c1
  let (node, c3) ← n.expression true c2
  some (.mk .spread c.pos c3.pos (comments ++ [node]), c3)

def argument (n : Nested) : Reader (List Node) := fun c => do
  let (node, c1) ← (n.spread c).or (n.expression true c)
  some ([node], c1)

/-- Reads types between angle brackets; there is at least one. -/
def typeArguments (n : Nested) : Reader Node := fun c => do
  let c1 ← c.expectChar? '<'
  guard ((skipGap c1).rest.head? != some '>')
  let (nodes, c2) ← readItems n.steps false n.typeText '>' c1
  some (.mk .typeArguments c.pos c2.pos nodes, c2)

/-- Reads an expression of markup: braces around nothing, a comment, a spread or a sequence. -/
def braces (n : Nested) : Reader Node := fun c => do
  let c1 ← c.expectChar? '{'
  let (before, c2) ← openGap c1
  match c2.expectChar? '}' with
  | some c3 => some (.mk .expression c.pos c3.pos before, c3)
  | Option.none => do
    let (node, c3) ← (n.spread c2).or (n.sequence true c2)
    let (after, c4) ← readClosing '}' c3
    some (.mk .expression c.pos c4.pos (before ++ node :: after), c4)

end Nested

end Offside.Markup
