import Offside.Template.Condition
import Offside.Template.Element
import Offside.Template.Header
import Offside.Template.Line
import Offside.Template.Outline
import Offside.Text.Word

/-!
Reading a template line by line. No text is refused: a line that does not fit is reported and left
out, and a line that is too deep is reported and moved up. The state between two lines is the tree
so far, the levels of the lines that can still take children, the conditionals that can still take
branches, and the header block that is open.
-/
namespace Offside

/-- What a line is, by how it starts. -/
inductive LineKind
  | id
  | props
  | classes
  | ifLine
  | elseIf
  | elseLine
  | forLine
  | pipe
  | expression
  | element
deriving DecidableEq, Repr, Inhabited

namespace LineKind

/-- Whether a text starts with a word that ends there. -/
def startsWithWord (word s : Text) : Bool :=
  word.isPrefixOf s && Text.atWordEnd (s.drop word.length)

/-- The kind of a line. `@if` and `@for` lead a line even if letters follow them directly. -/
def ofText (s : Text) : LineKind :=
  if ['#', 'i', 'd'].isPrefixOf s then .id
  else if s == ['p', 'r', 'o', 'p', 's'] then .props
  else if s == ['c', 'l', 'a', 's', 's', 'e', 's'] then .classes
  else if ['@', 'i', 'f'].isPrefixOf s then .ifLine
  else if startsWithWord ['@', 'e', 'l', 's', 'e', 'I', 'f'] s then .elseIf
  else if startsWithWord ['@', 'e', 'l', 's', 'e'] s then .elseLine
  else if ['@', 'f', 'o', 'r'].isPrefixOf s then .forLine
  else if ['|'].isPrefixOf s then .pipe
  else if ['{', '{'].isPrefixOf s then .expression
  else .element

/-- Whether such a line goes on with the conditional above it. -/
def continuesChain : LineKind → Bool
  | elseIf | elseLine => true
  | _ => false

end LineKind

namespace Loop

/-- Reads a loop line: `@for`, a variable, `in`, and what is looped over. -/
def read? (line : Text) : Option (Text × Text) := do
  let rest := line.drop 4
  let named := Text.trimStart rest
  let isStart (c : Char) := c.isAlpha || c == '_' || c == '$'
  let isRest (c : Char) := Text.isAsciiWord c || c == '$'
  guard (named.length < rest.length && (named.head?.any isStart))
  let afterName := named.dropWhile isRest
  let word := Text.trimStart afterName
  guard (word.length < afterName.length)
  let afterWord ← ['i', 'n'].isPrefixOf? word
  let iterable := Text.trimStart afterWord
  guard (iterable.length < afterWord.length && !iterable.isEmpty)
  some (named.takeWhile isRest, Text.trim iterable)

end Loop

/-- A conditional that can take another branch: its level, and whether it has had its `@else`. -/
structure Chain where
  level : Nat
  hasElse : Bool
deriving DecidableEq, Repr, Inhabited

/-- What is known between two lines. -/
structure Outliner where
  /-- The template so far. -/
  template : Template
  /-- The levels of the lines that can take children, the innermost first. -/
  frames : List Nat
  /-- The conditionals that can take another branch. -/
  chains : List Chain
  /-- The level of the open props block. -/
  propsLevel : Option Nat
  /-- The level of the open classes block. -/
  classesLevel : Option Nat
  /-- What has been reported, in the order of the lines. -/
  diagnostics : List Diagnostic
deriving Repr, Inhabited

namespace Outliner

def start (span : Option Span) : Outliner :=
  ⟨⟨none, none, none, none, none, [], span⟩, [], [], none, none, []⟩

def note (s : Outliner) (ds : List Diagnostic) : Outliner :=
  { s with diagnostics := s.diagnostics ++ ds }

def report (s : Outliner) (m : Mark) (p : Problem) (length : Nat) : Outliner :=
  s.note [m.diagnose p length]

/-- The deepest level that the next line can have. -/
def nextLevel (s : Outliner) : Nat :=
  match s.frames with
  | [] => 0
  | l :: _ => l + 1

/-- Adds a node to the innermost line that can take children. -/
def add (s : Outliner) (n : Node) : Outliner :=
  { s with template.children := Outline.add s.frames.length n s.template.children }

/-- Lets the lines below a line at a level become its children. -/
def push (s : Outliner) (level : Nat) : Outliner := { s with frames := level :: s.frames }

/-- Closes the header block that a line at a level does not belong to. -/
def closeHeaders (s : Outliner) (level : Nat) : Outliner :=
  let close (open_ : Option Nat) := open_.filter (· < level)
  { s with propsLevel := close s.propsLevel, classesLevel := close s.classesLevel }

/-- Closes what a line at a level ends: the lines at its level and deeper take no more children,
the conditionals deeper than it no more branches, and neither does the one at its level unless the
line goes on with it. -/
def settle (s : Outliner) (level : Nat) (kind : LineKind) : Outliner :=
  let open_ (c : Chain) := c.level < level || (c.level == level && kind.continuesChain)
  { s with frames := s.frames.dropWhile (level ≤ ·), chains := s.chains.filter open_ }

/-- The conditional at a level that can take another branch. -/
def chainAt? (s : Outliner) (level : Nat) : Option Chain := s.chains.find? (·.level == level)

def readId (s : Outliner) (m : Mark) (level : Nat) (line : Text) : Outliner :=
  if !Text.atWordEnd (line.drop 3) then s.report m .idForm line.length
  else if level != 0 then s.report m .idNested line.length
  else if s.template.rawId.isSome then s.report m .idRepeated line.length
  else match TemplateId.read m line with
    | .error d => s.note [d]
    | .ok (at_, value) =>
      { s with
        template.rawId := some value
        template.id := some (TemplateId.logical value)
        template.idSpan := some (at_.span value.length) }

def openProps (s : Outliner) (m : Mark) (level : Nat) (line : Text) : Outliner :=
  if level != 0 then s.report m .propsNested line.length
  else if !s.template.children.isEmpty || s.template.props.isSome then
    s.report m .propsLate line.length
  else
    { s with
      template.props := some ⟨[], some (m.span line.length)⟩
      propsLevel := some level }

/-- Reads a line of the props block that is open at `base`. -/
def readField (s : Outliner) (m : Mark) (base level : Nat) (line : Text) : Outliner :=
  if level != base + 1 then s.report m .fieldIndent 1
  else match PropsField.read m line with
    | .error d => s.note [d]
    | .ok field =>
      let add (p : PropsBlock) := { p with fields := p.fields ++ [field] }
      { s with template.props := s.template.props.map add }

def openClasses (s : Outliner) (m : Mark) (level : Nat) (line : Text) : Outliner :=
  if level != 0 then s.report m .classesNested line.length
  else if !s.template.children.isEmpty || s.template.aliases.isSome then
    s.report m .classesLate line.length
  else
    { s with
      template.aliases := some ⟨[], some (m.span line.length)⟩
      classesLevel := some level }

/-- Reads a line of the classes block that is open at `base`. -/
def readAlias (s : Outliner) (m : Mark) (base level : Nat) (line : Text) : Outliner :=
  if level != base + 1 then s.report m .aliasIndent 1
  else match ClassAlias.read m line with
    | .error d => s.note [d]
    | .ok a =>
      let add (b : AliasBlock) := { b with aliases := b.aliases ++ [a] }
      { s with template.aliases := s.template.aliases.map add }

/-- The branch that a head opens, with what its line says about its body. -/
def branchOf (head : BranchHead) : Branch Node × List Diagnostic :=
  match head.inline with
  | none => (⟨head.test, [], some head.span⟩, [])
  | some (m, body) =>
    let (node, ds) := Node.readInline m body
    (⟨head.test, node.toList, some head.span⟩, ds)

/-- Lets the lines below a branch go into it, unless its body stands on its own line. -/
def pushBranch (s : Outliner) (head : BranchHead) (level : Nat) : Outliner :=
  if head.inline.isSome then s else s.push level

/-- Reads an `@if` line, which starts a conditional. -/
def readIf (s : Outliner) (m : Mark) (level : Nat) (line : Text) : Outliner :=
  match BranchHead.readTested .ifLine m line with
  | .error d => s.note [d]
  | .ok head =>
    let (branch, ds) := branchOf head
    let s := (s.add (.conditional [branch] (some head.span))).note ds
    { s with chains := ⟨level, false⟩ :: s.chains }.pushBranch head level

def addBranch (s : Outliner) (head : BranchHead) (level : Nat) : Outliner :=
  let (branch, ds) := branchOf head
  let children := Outline.addBranch s.frames.length branch s.template.children
  ({ s with template.children := children }.note ds).pushBranch head level

def readElseIf (s : Outliner) (m : Mark) (level : Nat) (line : Text) : Outliner :=
  match s.chainAt? level with
  | none => s.report m .orphanElseIf line.length
  | some chain =>
    if chain.hasElse then s.report m .elseIfAfterElse line.length
    else match BranchHead.readTested .elseIf m line with
      | .error d => s.note [d]
      | .ok head => s.addBranch head level

def readElse (s : Outliner) (m : Mark) (level : Nat) (line : Text) : Outliner :=
  match s.chainAt? level with
  | none => s.report m .orphanElse line.length
  | some chain =>
    if chain.hasElse then s.report m .secondElse line.length
    else
      let close (c : Chain) := if c.level == level then { c with hasElse := true } else c
      { s with chains := s.chains.map close }.addBranch (BranchHead.readElse m line) level

def readLoop (s : Outliner) (m : Mark) (level : Nat) (line : Text) : Outliner :=
  match Loop.read? line with
  | none => s.report m .loopForm line.length
  | some (variableName, iterable) =>
    (s.add (.loop variableName iterable [] (some (m.span line.length)))).push level

/-- Reads a line of a kind, at a level that the open lines admit. -/
def readKind (s : Outliner) (m : Mark) (level : Nat) (line : Text) : LineKind → Outliner
  | .id => s.readId m level line
  | .props => s.openProps m level line
  | .classes => s.openClasses m level line
  | .ifLine => s.readIf m level line
  | .elseIf => s.readElseIf m level line
  | .elseLine => s.readElse m level line
  | .forLine => s.readLoop m level line
  | .pipe =>
    let (node, ds) := Pipe.read m .block line
    (s.add node).note ds
  | .expression =>
    match Node.readExpression m line with
    | .error d => s.note [d]
    | .ok node => s.add node
  | .element =>
    match Node.readElement m line with
    | .error d => s.note [d]
    | .ok (node, ds) => ((s.add node).note ds).push level

/-- Reads a line outside the header blocks. -/
def readBody (s : Outliner) (m : Mark) (level : Nat) (line : Text) : Outliner :=
  let jumped := s.nextLevel < level
  let s := if jumped then s.report m .indentJump 1 else s
  let level := min level s.nextLevel
  let kind := LineKind.ofText line
  (s.settle level kind).readKind m level line kind

/-- Reads a line whose margin is in order. -/
def readLevel (s : Outliner) (m : Mark) (level : Nat) (line : Text) : Outliner :=
  let s := s.closeHeaders level
  match s.propsLevel, s.classesLevel with
  | some base, _ => s.readField m base level line
  | none, some base => s.readAlias m base level line
  | none, none => s.readBody m level line

def step (s : Outliner) (l : Line) : Outliner :=
  match Margin.ofLine l.text with
  | .blank => s
  | .tab column => s.report (l.mark column) .tab 1
  | .odd column => s.report (l.mark column) .oddIndent 1
  | .level level content => s.readLevel (l.mark (2 * level + 1)) level content

end Outliner

namespace Node

mutual

/-- The spans of the branches without a body in a node, in the order of their lines. -/
def emptyBranches : Node → List (Option Span)
  | .element _ _ children _ => emptyBranchesIn children
  | .conditional branches _ => emptyBranchesOf branches
  | .loop _ _ body _ => emptyBranchesIn body
  | .text .. | .expression .. | .foreign .. => []

def emptyBranchesIn : List Node → List (Option Span)
  | [] => []
  | n :: ns => n.emptyBranches ++ emptyBranchesIn ns

def emptyBranchesOf : List (Branch Node) → List (Option Span)
  | [] => []
  | b :: bs => emptyBranchesAt b ++ emptyBranchesOf bs

def emptyBranchesAt : Branch Node → List (Option Span)
  | ⟨_, body, span⟩ => (if body.isEmpty then [span] else []) ++ emptyBranchesIn body

end

mutual

/-- The spans of the loops without a body in a node, in the order of their lines. -/
def emptyLoops : Node → List (Option Span)
  | .element _ _ children _ => emptyLoopsIn children
  | .conditional branches _ => emptyLoopsOf branches
  | .loop _ _ body span => (if body.isEmpty then [span] else []) ++ emptyLoopsIn body
  | .text .. | .expression .. | .foreign .. => []

def emptyLoopsIn : List Node → List (Option Span)
  | [] => []
  | n :: ns => n.emptyLoops ++ emptyLoopsIn ns

def emptyLoopsOf : List (Branch Node) → List (Option Span)
  | [] => []
  | b :: bs => emptyLoopsAt b ++ emptyLoopsOf bs

def emptyLoopsAt : Branch Node → List (Option Span)
  | ⟨_, body, _⟩ => emptyLoopsIn body

end

end Node

/-- A template with everything that was found about it. -/
structure Reading where
  template : Template
  diagnostics : List Diagnostic
deriving Repr, Inhabited

namespace Template

/-- The span of a whole text, given by its lines. -/
def wholeSpan (s : Text) : Span :=
  let ls := Text.lines s
  ⟨⟨1, 1, 0⟩, ⟨ls.length, (ls.getLastD []).length + 1, s.length⟩⟩

/-- The state after the last line. -/
def outline (s : Text) : Outliner :=
  (Line.ofText s).foldl Outliner.step (Outliner.start (some (wholeSpan s)))

/-- The branches and then the loops that stay without a body. -/
def emptyBodies (t : Template) : List Diagnostic :=
  (Node.emptyBranchesIn t.children).map (Diagnostic.ofProblem .emptyBranch) ++
    (Node.emptyLoopsIn t.children).map (Diagnostic.ofProblem .emptyLoop)

/-- Reads a template, in whatever way its lines end. -/
def read (s : Text) : Reading :=
  let last := outline (Text.unifyNewlines s)
  ⟨last.template, last.diagnostics ++ emptyBodies last.template⟩

end Template

/-- Whether the template has to be mended. -/
def Reading.hasErrors (r : Reading) : Bool := Diagnostic.anyError r.diagnostics

end Offside
