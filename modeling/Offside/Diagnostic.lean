import Offside.Span

/-!
Diagnostics are data: a reader collects them and goes on. `Problem` lists every cause that a
template reader reports; its code and its wording are functions of the cause, so the same cause
always reads the same.
-/
namespace Offside

/-- How grave a diagnostic is. Only `error` makes a template unfit for export; a severity of
another name is carried along but no check report can hold it. -/
inductive Severity
  | error
  | warning
  | other (name : Text)
deriving DecidableEq, Repr, Inhabited

/-- The stable codes: one code, one class of problem. -/
inductive Code
  | tabIndent
  | oddIndent
  | indentJump
  | invalidElement
  | invalidExpression
  | propsOrder
  | propsForm
  | classesBlock
  | classAliasForm
  | templateId
  | invalidIf
  | invalidElse
  | orphanElseIf
  | orphanElse
  | elseIfAfterElse
  | emptyBranch
  | inlineDirective
  | invalidFor
  | emptyFor
deriving DecidableEq, Repr, Inhabited

namespace Code

def label : Code → String
  | tabIndent => "COLLIE001"
  | oddIndent => "COLLIE002"
  | indentJump => "COLLIE003"
  | invalidElement => "COLLIE004"
  | invalidExpression => "COLLIE005"
  | propsOrder => "COLLIE101"
  | propsForm => "COLLIE102"
  | classesBlock => "COLLIE103"
  | classAliasForm => "COLLIE104"
  | templateId => "COLLIE105"
  | invalidIf => "COLLIE201"
  | invalidElse => "COLLIE203"
  | orphanElseIf => "COLLIE205"
  | orphanElse => "COLLIE206"
  | elseIfAfterElse => "COLLIE207"
  | emptyBranch => "COLLIE208"
  | inlineDirective => "COLLIE209"
  | invalidFor => "COLLIE210"
  | emptyFor => "COLLIE211"

def all : List Code :=
  [tabIndent, oddIndent, indentJump, invalidElement, invalidExpression, propsOrder, propsForm,
   classesBlock, classAliasForm, templateId, invalidIf, invalidElse, orphanElseIf, orphanElse,
   elseIfAfterElse, emptyBranch, inlineDirective, invalidFor, emptyFor]

def ofLabel? (label : String) : Option Code := all.find? (·.label == label)

end Code

/-- The lines that open a tested branch. -/
inductive TestKeyword
  | ifLine
  | elseIf
deriving DecidableEq, Repr, Inhabited

def TestKeyword.word : TestKeyword → Text
  | .ifLine => ['@', 'i', 'f']
  | .elseIf => ['@', 'e', 'l', 's', 'e', 'I', 'f']

/-- What can be wrong with a line of a template. -/
inductive Problem
  | tab
  | oddIndent
  | indentJump
  | idForm
  | idNested
  | idRepeated
  | idValue
  | propsNested
  | propsLate
  | fieldIndent
  | fieldForm
  | fieldUntyped
  | classesNested
  | classesLate
  | aliasIndent
  | aliasForm
  | aliasClasses
  | orphanElseIf
  | elseIfAfterElse
  | orphanElse
  | secondElse
  | testForm (keyword : TestKeyword)
  | testEmpty (keyword : TestKeyword)
  | inlineDirective
  | loopForm
  | strayClose
  | openExpression
  | emptyInlineExpression
  | openExpressionLine
  | afterExpressionLine
  | emptyExpressionLine
  | elementName
  | className
  | elementTail
  | emptyBranch
  | emptyLoop
deriving DecidableEq, Repr, Inhabited

namespace Problem

/-- The class that a problem belongs to. -/
def code : Problem → Code
  | tab => .tabIndent
  | oddIndent => .oddIndent
  | indentJump => .indentJump
  | idForm | idNested | idRepeated | idValue => .templateId
  | propsNested | fieldIndent | fieldForm | fieldUntyped => .propsForm
  | propsLate => .propsOrder
  | classesNested | classesLate => .classesBlock
  | aliasIndent | aliasForm | aliasClasses => .classAliasForm
  | orphanElseIf => .orphanElseIf
  | elseIfAfterElse => .elseIfAfterElse
  | orphanElse => .orphanElse
  | secondElse => .invalidElse
  | testForm _ | testEmpty _ => .invalidIf
  | inlineDirective => .inlineDirective
  | loopForm => .invalidFor
  | strayClose | openExpression | emptyInlineExpression | openExpressionLine
  | afterExpressionLine | emptyExpressionLine => .invalidExpression
  | elementName | className | elementTail => .invalidElement
  | emptyBranch => .emptyBranch
  | emptyLoop => .emptyFor

def message : Problem → Text
  | tab => "Tabs are not allowed; use spaces for indentation.".toList
  | oddIndent => "Indentation must be multiples of two spaces.".toList
  | indentJump => "Indentation jumped more than one level.".toList
  | idForm => "Invalid #id directive. Use #id name.".toList
  | idNested => "The #id directive must be at the top level.".toList
  | idRepeated => "A template can only declare one #id.".toList
  | idValue =>
    ("Template ids must start with a letter and contain only letters, numbers, underscores, " ++
      "or hyphens.").toList
  | propsNested => "Props block must be at the top level.".toList
  | propsLate => "Props block must appear before any template nodes.".toList
  | fieldIndent => "Props lines must be indented two spaces under the props header.".toList
  | fieldForm => "Props lines must be in the form `name[?]: Type`.".toList
  | fieldUntyped => "Props lines must provide a type after the colon.".toList
  | classesNested => "Classes block must be at the top level.".toList
  | classesLate => "Classes block must appear once, before any template nodes.".toList
  | aliasIndent => "Class aliases must be indented two spaces under the classes header.".toList
  | aliasForm => "Class aliases must be in the form `name = .class.class`.".toList
  | aliasClasses => "Class aliases must list one or more classes separated by dots.".toList
  | orphanElseIf => "@elseIf must follow an @if at the same indentation level.".toList
  | elseIfAfterElse => "@elseIf cannot appear after an @else in the same chain.".toList
  | orphanElse => "@else must follow an @if at the same indentation level.".toList
  | secondElse => "An @if chain can only have one @else branch.".toList
  | testForm k => "Invalid ".toList ++ k.word ++ " syntax. Use ".toList ++ k.word ++
      " (condition).".toList
  | testEmpty k => k.word ++ " condition cannot be empty.".toList
  | inlineDirective =>
    "Inline conditional bodies may only contain elements, text, or expressions.".toList
  | loopForm => "Invalid @for syntax. Use @for item in items.".toList
  | strayClose => "Inline expression closing \x7d\x7d must follow an opening \x7b\x7b.".toList
  | openExpression => "Inline expression must end with \x7d\x7d.".toList
  | emptyInlineExpression => "Inline expression cannot be empty.".toList
  | openExpressionLine => "Expression lines must end with \x7d\x7d.".toList
  | afterExpressionLine =>
    "Expression lines cannot contain text after the closing \x7d\x7d.".toList
  | emptyExpressionLine => "Expression cannot be empty.".toList
  | elementName => "Element lines must start with a valid tag or component name.".toList
  | className =>
    "Class names must contain only letters, numbers, underscores, or hyphens.".toList
  | elementTail =>
    ("Element lines may only contain .class shorthands or inline text after the tag " ++
      "name.").toList
  | emptyBranch => "Conditional branches must include an inline body or indented block.".toList
  | emptyLoop => "@for loops must include an indented block.".toList

end Problem

/-- One finding about a template. -/
structure Diagnostic where
  severity : Severity
  message : Text
  span : Option Span
  code : Option Code
  file : Option Text
deriving DecidableEq, Repr, Inhabited

namespace Diagnostic

/-- The error that a problem is, at a span. -/
def ofProblem (p : Problem) (span : Option Span) : Diagnostic :=
  ⟨.error, p.message, span, some p.code, none⟩

/-- Whether the template has to be mended. -/
def isError (d : Diagnostic) : Bool := d.severity == .error

/-- The finding on one line: message, code in brackets, place. -/
def describe (d : Diagnostic) : Text :=
  let code := match d.code with
    | some c => " [".toList ++ c.label.toList ++ [']']
    | none => []
  let place := match d.span with
    | some s => "line ".toList ++ Text.ofInt s.start.line ++ ", column ".toList ++
        Text.ofInt s.start.column
    | none => "unknown location".toList
  d.message ++ code ++ " at ".toList ++ place

def errors (ds : List Diagnostic) : List Diagnostic := ds.filter isError

def anyError (ds : List Diagnostic) : Bool := ds.any isError

end Diagnostic

/-- The error for a problem at a mark, over at least one character. -/
def Mark.diagnose (m : Mark) (p : Problem) (length : Nat) : Diagnostic :=
  Diagnostic.ofProblem p (some (m.span (max length 1)))

end Offside
