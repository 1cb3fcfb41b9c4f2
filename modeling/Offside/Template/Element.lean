import Offside.Template.Pipe

/-!
Lines that are not led by a keyword: an element, a text or an expression. An element line is a
name, then classes led by a dot, blanks between as one likes, then perhaps a pipe with text.
-/
namespace Offside

namespace Selector

def isNameStart (c : Char) : Bool := c.isAlpha

def isNameChar (c : Char) : Bool := c.isAlphanum || c == '_' || c == '$' || c == '-'

/-- What a class consists of, a leading `$` apart. -/
def isClassChar (c : Char) : Bool := c.isAlphanum || c == '_' || c == '-'

/-- What follows the name of an element: the classes, and the pipe text with its place. -/
structure Tail where
  classes : List Text
  pipe : Option (Mark × Text)
deriving DecidableEq, Repr, Inhabited

/-- Where a reader stands behind the name of an element. -/
inductive Place
  /-- Outside the classes. -/
  | between
  /-- Behind the dot that leads a class. -/
  | start
  /-- Inside a class. -/
  | inside
deriving DecidableEq, Repr, Inhabited

/-- Whether a character, with `rest` behind it, belongs to the class that is being read. A class
may start with a `$`, which makes it the name of an alias. -/
def Place.takes (c : Char) (rest : Text) : Place → Bool
  | between => false
  | start => isClassChar c || (c == '$' && rest.head?.any isClassChar)
  | inside => isClassChar c

/-- Reads what follows the name of an element, from `m` on. What is left of the class that is being
read comes first. A dot without a class is reported behind the dot. -/
def readTail (m : Mark) (place : Place) : Text → Except Diagnostic (Text × Tail)
  | [] => if place == .start then .error (m.diagnose .className 1) else .ok ([], ⟨[], none⟩)
  | c :: s =>
    if place.takes c s then do
      let (token, tail) ← readTail (m.right 1) .inside s
      .ok (c :: token, tail)
    else if place == .start then .error (m.diagnose .className 1)
    else if Text.isBlank c then do
      let (_, tail) ← readTail (m.right 1) .between s
      .ok ([], tail)
    else if c == '|' then .ok ([], ⟨[], some (m, c :: s)⟩)
    else if c == '.' then do
      let (token, tail) ← readTail (m.right 1) .start s
      .ok ([], { tail with classes := token :: tail.classes })
    else .error (m.diagnose .elementTail 1)

end Selector

namespace Node

open Selector in
/-- Reads an element line that starts at `m`. A line that is none is reported once; the problems
of the pipe text come along with an element. -/
def readElement (m : Mark) (line : Text) : Except Diagnostic (Node × List Diagnostic) :=
  match line with
  | c :: _ =>
    if isNameStart c then do
      let name := line.takeWhile isNameChar
      let (_, tail) ← readTail (m.right name.length) .between (line.drop name.length)
      let span := some (m.span line.length)
      match tail.pipe with
      | none => .ok (.element name tail.classes [] span, [])
      | some (p, s) =>
        let (node, ds) := Pipe.read p .inline s
        .ok (.element name tail.classes [node] span, ds)
    else .error (m.diagnose .elementName line.length)
  | [] => .error (m.diagnose .elementName line.length)

/-- Reads a line that starts with two braces at `m`: one expression, and nothing after it. -/
def readExpression (m : Mark) (line : Text) : Except Diagnostic Node :=
  match Text.cutAtPair '}' '}' (line.drop 2) with
  | none => .error (m.diagnose .openExpressionLine 1)
  | some (inner, after) =>
    let length := inner.length + 4
    if !(Text.trim after).isEmpty then
      .error ((m.right length).diagnose .afterExpressionLine 1)
    else match Text.trim inner with
      | [] => .error (m.diagnose .emptyExpressionLine length)
      | value => .ok (.expression value (some (m.span line.length)))

/-- A reading with at most one node, and with everything there is to report. -/
def reading (r : Except Diagnostic (Node × List Diagnostic)) : Option Node × List Diagnostic :=
  match r with
  | .ok (n, ds) => (some n, ds)
  | .error d => (none, [d])

/-- Reads what may stand on the line of a branch: a text, an expression or an element. -/
def readInline (m : Mark) (line : Text) : Option Node × List Diagnostic :=
  match line with
  | '|' :: _ =>
    let (node, ds) := Pipe.read m .inline line
    (some node, ds)
  | '{' :: '{' :: _ => reading ((readExpression m line).map (·, []))
  | '@' :: _ => (none, [m.diagnose .inlineDirective line.length])
  | _ => reading (readElement m line)

end Node

end Offside
