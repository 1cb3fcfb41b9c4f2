import Offside.Markup.Nested

/-!
Literals that can hold expressions, and runs of words in brackets. A run is read without knowing
what its words mean; it tells only strings, comments, patterns of text and markup from the rest.
-/
namespace Offside.Markup

namespace Kind

def number : Kind := other "number".toList

/-- A pattern of text between slashes. -/
def regex : Kind := other "regex".toList

/-- A text in backticks. -/
def template : Kind := other "template_string".toList

end Kind

def readString : Reader Node := fun c =>
  match c.rest with
  | x :: s =>
    if x == '"' || x == '\x27' then do
      let c1 ← readStringEnd x (c.pos + 1) 0 s
      some (.mk .string c.pos c1.pos [], c1)
    else none
  | [] => none

def readNumber : Reader Node := fun c => do
  let k ← numberLength? c.rest
  some (.mk .number c.pos (c.pos + k) [], c.skip k)

/-- Reads a pattern of text at its first slash. -/
def readRegex : Reader Node := fun c =>
  match c.rest with
  | '/' :: s => do
    let c1 ← readRegexEnd (c.pos + 1) false false s
    some (.mk .regex c.pos c1.pos [], c1)
  | _ => none

def readTemplate (n : Nested) : Reader Node := fun c => do
  let c1 ← c.expectChar? '\x60'
  let (nodes, _, c2) ← repeatStep step n.steps () c1
  some (.mk .template c.pos c2.pos nodes, c2)
where
  /-- Reads an expression, an escape, a character, or the end. -/
  step (_ : Unit) (c : Cursor) : Option (Step Unit) :=
    match c.rest with
    | [] => none
    | '\\' :: s => (escapeLength? s).map fun k => .more [] () (c.skip (k + 1))
    | '$' :: '\x7b' :: _ => do
      let (before, c1) ← openGap (c.skip 2)
      let (node, c2) ← n.sequence true c1
      let (after, c3) ← readClosing '\x7d' c2
      some (.more (before ++ node :: after) () c3)
    | x :: _ =>
      if x == '\x60' then some (.done [] () (c.skip 1)) else some (.more [] () (c.skip 1))

/-- Words after which a value can stand. -/
def valueLeads : List Text :=
  ["return", "typeof", "case", "do", "else", "in", "instanceof", "void", "delete", "throw", "new",
    "await", "yield", "default", "of"].map String.toList

def closingBracket? : Char → Option Char
  | '(' => some ')'
  | '[' => some ']'
  | '\x7b' => some '\x7d'
  | _ => none

/-- Reads words up to a closing bracket, and not that bracket itself. -/
def readBlock (n : Nested) : Reader (List Node) := fun c => do
  let (nodes, _, c') ← repeatStep step n.steps false c
  some (nodes, c')
where
  /-- Reads a word. After a value a slash divides and an angle bracket compares. -/
  step (afterValue : Bool) (c : Cursor) : Option (Step Bool) := do
    let (comments, c1) ← gap c
    match c1.rest with
    | [] => none
    | x :: _ =>
      let value (found : Option (Node × Cursor)) : Option (Step Bool) := do
        let (node, c2) ← found
        some (.more (comments ++ [node]) true c2)
      let sign : Option (Step Bool) := some (.more comments false (c1.skip 1))
      if [')', ']', '\x7d'].contains x then some (.done comments false c1)
      else if x == '"' || x == '\x27' then value (readString c1)
      else if x == '\x60' then value (readTemplate n c1)
      else if x.isDigit then value (readNumber c1)
      else if startsName c1.rest then do
        let (word, c2) ← readName c1
        some (.more (comments ++ [.mk .identifier c1.pos c2.pos []])
          (!valueLeads.contains word) c2)
      else if x == '/' && !afterValue then value (readRegex c1)
      else if x == '<' && !afterValue then (value (n.markup c1)).or sign
      else
        match closingBracket? x with
        | some close => do
          let (nodes, c2) ← n.block (c1.skip 1)
          let c3 ← c2.expectChar? close
          some (.more (comments ++ nodes) (close != '\x7d') c3)
        | none => if x.toNat < 0x20 || x == '@' || x == '\\' then none else sign

end Offside.Markup
