import Offside.Diagnostic
import Offside.Json
import Offside.Text.Literal

/-!
The report of a check: the diagnostics of one template, for other programs to read.
-/
namespace Offside

/-- A severity that a report knows. -/
inductive Report.Severity
  | error
  | warning
deriving DecidableEq, Repr

/-- A diagnostic as a report holds it. -/
structure Report.Entry where
  severity : Report.Severity
  message : Text
  code : Option Code
  span : Option Span
deriving DecidableEq, Repr

structure Report where
  file : Text
  templateId : Option Text
  entries : List Report.Entry
deriving DecidableEq, Repr

namespace Report

def Severity.label : Severity → Text
  | error => "error".toList
  | warning => "warning".toList

/-- What the user reads about a severity that no report knows. -/
def unknownSeverity (name : Text) : Text := Text.literal name ++ " is not a valid Severity".toList

/-- The entry for a diagnostic; the name of its severity if no report knows it. -/
def Entry.of (d : Diagnostic) : Except Text Entry :=
  match d.severity with
  | .error => .ok ⟨.error, d.message, d.code, d.span⟩
  | .warning => .ok ⟨.warning, d.message, d.code, d.span⟩
  | .other name => .error name

/-- The report of a check. It fails with the name of the first severity that it does not know. -/
def make (file : Text) (templateId : Option Text) (ds : List Diagnostic) : Except Text Report := do
  let entries ← ds.mapM Entry.of
  return ⟨file, templateId, entries⟩

def errors (r : Report) : Nat := r.entries.countP (·.severity == .error)

def warnings (r : Report) : Nat := r.entries.length - r.errors

def positionData (p : Position) : Json :=
  .object [("line".toList, .integer p.line), ("column".toList, .integer p.column),
    ("offset".toList, .integer p.offset)]

def Entry.data (e : Entry) : Json :=
  .object [("severity".toList, .text e.severity.label), ("message".toList, .text e.message),
    ("code".toList, .ofText? (e.code.map (·.label.toList))),
    ("start".toList, (e.span.map fun s => positionData s.start).getD .null),
    ("end".toList, (e.span.map fun s => positionData s.stop).getD .null)]

def data (r : Report) : Json :=
  .object [("protocol".toList, .integer 1), ("file".toList, .text r.file),
    ("ok".toList, .boolean (r.errors == 0)), ("templateId".toList, .ofText? r.templateId),
    ("errors".toList, .integer r.errors), ("warnings".toList, .integer r.warnings),
    ("diagnostics".toList, .list (r.entries.map Entry.data))]

def write (r : Report) : Text := r.data.write

/-- The text of a report whose numbers may be of any size, or why there is none. -/
def write? (r : Report) : Except Text Text :=
  if r.data.isWritable then .ok r.write else .error Numeral.unwritableMessage

end Report

end Offside
