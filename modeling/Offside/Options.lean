import Offside.Text.Basic

/-!
What a user can choose about the output.
-/
namespace Offside

/-- How a template is laid out. -/
structure Layout where
  /-- Spaces per level; a negative number counts as none. -/
  indentSize : Int := 2
  /-- `div.a.b` rather than `div .a .b`. -/
  compactSelectors : Bool := true
  /-- `| text` rather than `|text`. -/
  spaceAroundPipe : Bool := true
  /-- `name: Type` rather than `name:Type`. -/
  spacedProps : Bool := true
deriving DecidableEq, Repr, Inhabited

/-- The flavours of markup. They share one output; the flavour labels it. -/
inductive Target
  | jsx
  | tsx
deriving DecidableEq, Repr, Inhabited

def Target.label : Target → String
  | .jsx => "JSX"
  | .tsx => "TSX"

/-- How a template is exported to markup. -/
structure ExportOptions where
  target : Target := .jsx
  indentSize : Int := 2
deriving DecidableEq, Repr, Inhabited

/-- Everything a configuration file can set. -/
structure Settings where
  format : Layout := {}
  exporting : ExportOptions := {}
deriving DecidableEq, Repr, Inhabited

inductive IndentError
  /-- The spaces of one level are more than a machine word counts. -/
  | uncountable
  /-- The spaces of one level are more than a machine holds. -/
  | unaffordable
deriving DecidableEq, Repr

def IndentError.message : IndentError → Text
  | uncountable => "The indent is too wide to be counted.".toList
  | unaffordable => "The indent is too wide to be held in memory.".toList

/-- Checks the spaces of one level, which are laid out before any line is. A signed word of
sixty-four bits has to count them. How many of them a machine holds is its own affair; the one
assumed here holds fewer than `2 ^ 39`. -/
def checkIndent (size : Int) : Except IndentError Unit :=
  if Nat.pow 2 63 ≤ size.toNat then .error .uncountable
  else if Nat.pow 2 39 ≤ size.toNat then .error .unaffordable
  else .ok ()

/-- The margin of a line at a level. -/
def indentation (size : Int) (level : Nat) : Text := List.replicate (size.toNat * level) ' '

end Offside
