import Offside.Diagnostic

/-!
The lines of a template and what their left margin says. Two spaces make a level; blank lines say
nothing, and a line with a tab or half a level is not read any further.
-/
namespace Offside

/-- A line with its number, counted from one, and the offset of its first character. -/
structure Line where
  number : Nat
  offset : Nat
  text : Text
deriving DecidableEq, Repr, Inhabited

namespace Line

/-- Lines numbered from `number` on, the first of them starting at `offset`. -/
def numberFrom (number offset : Nat) : List Text → List Line
  | [] => []
  | t :: ts => ⟨number, offset, t⟩ :: numberFrom (number + 1) (offset + t.length + 1) ts

def ofText (s : Text) : List Line := numberFrom 1 0 (Text.lines s)

def mark (l : Line) (column : Nat) : Mark := ⟨l.number, column, l.offset⟩

end Line

/-- What the left margin of a line says. -/
inductive Margin
  | blank
  /-- The line has a tab, the first of them at `column`. -/
  | tab (column : Nat)
  /-- The line starts at `column`, half a level in. -/
  | odd (column : Nat)
  /-- The line starts at `level` and says `content`, which ends without blanks. -/
  | level (level : Nat) (content : Text)
deriving DecidableEq, Repr, Inhabited

namespace Margin

def spaces (s : Text) : Nat := (s.takeWhile (· == ' ')).length

def ofLine (s : Text) : Margin :=
  if s.all Text.isBlank then .blank
  else match s.findIdx? (· == '\t') with
    | some i => .tab (i + 1)
    | none =>
      let n := spaces s
      if n % 2 == 1 then .odd (n + 1) else .level (n / 2) (Text.trimEnd (s.drop n))

end Margin

end Offside
