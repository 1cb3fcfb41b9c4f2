import Offside.Template.Node
import Offside.Diagnostic

/-!
The text after a pipe: literal text with expressions between double braces. Reading keeps neither
an empty literal nor two neighbouring ones, so what is read is in normal form.
-/
namespace Offside

/-- Puts a character in front of parts, into the first of them if that is literal. -/
def Part.consChar (c : Char) : List Part → List Part
  | .literal v :: ps => .literal (c :: v) :: ps
  | ps => .literal [c] :: ps

/-- Puts literal text in front of parts. -/
def Part.consText (v : Text) (ps : List Part) : List Part := v.foldr consChar ps

namespace Pipe

/-- Reads the parts of a payload that starts at `m`. With `opened = some (o, inner)` the reader is
inside an expression: its braces opened at `o`, and `inner` has been read since, last character
first. Braces that never close are literal text; a closing pair that closes nothing is dropped. -/
def readParts (m : Mark) (opened : Option (Mark × Text)) : Text → List Part × List Diagnostic
  | '}' :: '}' :: s =>
    let (ps, ds) := readParts (m.right 2) none s
    match opened with
    | none => (ps, m.diagnose .strayClose 2 :: ds)
    | some (o, inner) =>
      let length := inner.length + 4
      match Text.trim inner.reverse with
      | [] => (ps, o.diagnose .emptyInlineExpression length :: ds)
      | value => (.expression value (some (o.span length)) :: ps, ds)
  | '{' :: '{' :: s =>
    match opened with
    | none => readParts (m.right 2) (some (m, [])) s
    | some (o, inner) => readParts (m.right 2) (some (o, '{' :: '{' :: inner)) s
  | c :: s =>
    match opened with
    | none =>
      let (ps, ds) := readParts (m.right 1) none s
      (Part.consChar c ps, ds)
    | some (o, inner) => readParts (m.right 1) (some (o, c :: inner)) s
  | [] =>
    match opened with
    | none => ([], [])
    | some (o, inner) =>
      (Part.consText ('{' :: '{' :: inner.reverse) [], [o.diagnose .openExpression 1])

/-- Reads a text that starts with its pipe at `m`; one space after the pipe belongs to the pipe. -/
def read (m : Mark) (placement : Placement) (s : Text) : Node × List Diagnostic :=
  let payload := s.drop 1
  let (ps, ds) := match payload with
    | ' ' :: rest => readParts (m.right 2) none rest
    | _ => readParts (m.right 1) none payload
  (.text ps placement (some (m.span s.length)), ds)

def writePart : Part → Text
  | .literal v => v
  | .expression v _ => ['{', '{', ' '] ++ v ++ [' ', '}', '}']

def payload (ps : List Part) : Text := ps.flatMap writePart

/-- The pipe with its text. A payload that starts with a space keeps a space between, which reading
takes away again. -/
def write (spaced : Bool) (ps : List Part) : Text :=
  match payload ps with
  | [] => ['|']
  | c :: s => if spaced || c == ' ' then '|' :: ' ' :: c :: s else '|' :: c :: s

end Pipe

end Offside
