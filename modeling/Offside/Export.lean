import Offside.Ir.Lowering
import Offside.Ir.ToMarkup
import Offside.Template.Reader

/-!
Exporting a template to markup. A template with errors is not exported; a comment that lists them
takes the place of the markup.
-/
namespace Offside

/-- The comment that lists what has to be mended. -/
def exportFailure (ds : List Diagnostic) : Text :=
  if ds.isEmpty then "/* Collie export failed: parser returned an unknown error. */".toList
  else Text.unlines ("/* Collie export failed to parse the template.".toList ::
    ds.map (fun d => " * ".toList ++ d.describe) ++ [" */".toList])

/-- What came of an export. -/
inductive Exported
  | success (target : Target) (diagnostics : List Diagnostic) (nodes : List Ir.Node)
      (output : Text)
  | failure (target : Target) (errors : List Diagnostic)

def Exported.output : Exported → Text
  | .success _ _ _ output => output
  | .failure _ errors => exportFailure errors

def Exported.isSuccess : Exported → Bool
  | .success .. => true
  | .failure .. => false

/-- Exports a template. A flavour that is asked for wins over that of the options. -/
def exportTemplate (s : Text) (target : Option Target) (o : ExportOptions) : Exported :=
  let target := target.getD o.target
  let r := Template.read s
  match Diagnostic.errors r.diagnostics with
  | [] =>
    let nodes := Ir.ofTemplate r.template
    .success target r.diagnostics nodes (Ir.writeMarkup o.indentSize nodes)
  | errors => .failure target errors

/-- Exports a template, if lines can be indented. A failure needs no indent. -/
def exportTemplate? (s : Text) (target : Option Target) (o : ExportOptions) :
    Except IndentError Exported := do
  if !(Template.read s).hasErrors then checkIndent o.indentSize
  return exportTemplate s target o

end Offside
