import Offside.Ir.ToTemplate
import Offside.Markup.Lowering
import Offside.Markup.Program
import Offside.Markup.Selection

/-!
Importing a selection of markup as a template, with any reader of programs, and with the one of this
library.
-/
namespace Offside

inductive ImportError
  /-- It cannot be read. -/
  | selection (error : Markup.SelectionError)
  /-- What it says cannot be written as a template. -/
  | template (error : Ir.TemplateError)
deriving DecidableEq, Repr

def ImportError.message : ImportError → Text
  | .selection e => e.message
  | .template e => e.message

/-- A selection of markup as a template, with what the user has to know about it. -/
structure Imported where
  nodes : List Ir.Node
  warnings : List Text
  text : Text

/-- The neutral form of a selection as a reader of programs reads it. -/
def importNodesWith (read? : Text → Option Markup.Node) (selection : Text) :
    Except Markup.SelectionError (Markup.Lowered (List Ir.Node)) := do
  let (doc, nodes) ← Markup.Selection.readWith read? selection
  return Markup.lower doc nodes

/-- Imports a selection as a reader of programs reads it. What is lost in reading it is told before
what the template cannot show. -/
def importMarkupWith (read? : Text → Option Markup.Node) (o : Layout) (selection : Text) :
    Except ImportError Imported := do
  let lowered ← (importNodesWith read? selection).mapError .selection
  let text ← (Ir.writeTemplate? o lowered.value).mapError .template
  return ⟨lowered.value, lowered.warnings ++ Ir.warningsOf lowered.value, text⟩

def importNodes (selection : Text) :
    Except Markup.SelectionError (Markup.Lowered (List Ir.Node)) :=
  importNodesWith Markup.Program.read? selection

def importMarkup (o : Layout) (selection : Text) : Except ImportError Imported :=
  importMarkupWith Markup.Program.read? o selection

end Offside
