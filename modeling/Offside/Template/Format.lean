import Offside.Template.Printer
import Offside.Template.Reader

/-!
Formatting a document. A template without errors is written anew from its tree. One with errors
would lose the lines that its tree leaves out, so only its white space is put in order.
-/
namespace Offside

namespace Respace

/-- A line with each tab turned into `width` spaces and without trailing blanks. -/
def expand (width : Nat) (line : Text) : Text :=
  Text.trimEnd (line.flatMap fun c => if c == '\t' then List.replicate width ' ' else [c])

/-- A line with its margin rounded down to whole units of `width` spaces. -/
def line (width : Nat) (l : Text) : Text :=
  let expanded := expand width l
  let spaces := Margin.spaces expanded
  List.replicate (spaces / width * width) ' ' ++ expanded.drop spaces

/-- The spaces of a unit; there is at least one. -/
def unit (indentSize : Int) : Nat := (max 1 indentSize).toNat

/-- A text with the white space of each line put in order. -/
def text (indentSize : Int) (s : Text) : Text :=
  Text.unlines ((Text.lines (Text.unifyNewlines s)).map (line (unit indentSize)))

/-- A text with the white space of each line put in order, if a unit can be made. -/
def text? (indentSize : Int) (s : Text) : Except IndentError Text :=
  (checkIndent indentSize).map fun _ => text indentSize s

end Respace

structure Formatted where
  text : Text
  /-- Only the white space was put in order. -/
  respaced : Bool
  diagnostics : List Diagnostic
deriving Repr, Inhabited

def format (o : Layout) (s : Text) : Formatted :=
  let r := Template.read s
  if r.hasErrors then ⟨Respace.text o.indentSize s, true, r.diagnostics⟩
  else ⟨r.template.write o, false, r.diagnostics⟩

/-- Formats a document, if lines can be indented. -/
def format? (o : Layout) (s : Text) : Except IndentError Formatted :=
  (checkIndent o.indentSize).map fun _ => format o s

def Formatted.changed (f : Formatted) (s : Text) : Bool := f.text != s

end Offside
