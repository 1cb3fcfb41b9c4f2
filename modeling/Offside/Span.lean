import Offside.Text.Basic

/-!
Places in a text. A span is half-open; the spans made here lie on one line, so their ends differ
from their starts in column and offset by the same length.
-/
namespace Offside

/-- A place in a text: line and column count from one, the offset from zero. -/
structure Position where
  line : Int
  column : Int
  offset : Int
deriving DecidableEq, Repr, Inhabited

/-- The characters from `start` up to, but without, `stop`. -/
structure Span where
  start : Position
  stop : Position
deriving DecidableEq, Repr, Inhabited

namespace Span

/-- The number of characters in the span. -/
def length (s : Span) : Int := s.stop.offset - s.start.offset

def contains (s : Span) (offset : Int) : Bool :=
  s.start.offset ≤ offset && offset < s.stop.offset

/-- The span of `length` characters from a column of a line that starts at `lineOffset`. -/
def onLine (line column length lineOffset : Int) : Span :=
  let offset := lineOffset + column - 1
  ⟨⟨line, column, offset⟩, ⟨line, column + length, offset + length⟩⟩

end Span

/-- Where a reader stands: a column of a line, and the offset at which that line starts. -/
structure Mark where
  line : Nat
  column : Nat
  lineOffset : Nat
deriving DecidableEq, Repr, Inhabited

namespace Mark

/-- The mark `n` characters to the right. -/
def right (m : Mark) (n : Nat) : Mark := { m with column := m.column + n }

/-- The span of `length` characters from the mark. -/
def span (m : Mark) (length : Nat) : Span := Span.onLine m.line m.column length m.lineOffset

end Mark

end Offside
