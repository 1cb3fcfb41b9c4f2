import Offside.Template.Reader

/-!
Reading a template in place. The lists of its nodes lie in memory and grow where they lie: a line
that can take children is kept with the place of the list that they go to, and a conditional that
can take branches with the place of its branches. The same tree as an `Outliner` has comes of it.
-/
namespace Offside

/-- The place of a list in memory. -/
abbrev Ref := Nat

/-- A node in a list. The lists that it holds lie elsewhere. -/
inductive Cell
  /-- A text or an expression. -/
  | leaf (node : Node)
  | element (name : Text) (classes : List Text) (children : Ref) (span : Option Span)
  | conditional (branches : Ref) (span : Option Span)
  | loop (variableName iterable : Text) (body : Ref) (span : Option Span)
deriving Repr, Inhabited

/-- A branch in the list of a conditional. -/
structure BranchCell where
  test : Option Text
  body : Ref
  span : Option Span
deriving Repr, Inhabited

/-- What lies in a place. -/
inductive Stored
  | nodes (cells : List Cell)
  | branches (cells : List BranchCell)
deriving Repr, Inhabited

def Stored.append (c : Cell) : Stored → Stored
  | nodes cells => nodes (cells ++ [c])
  | branches cells => branches cells

def Stored.appendBranch (b : BranchCell) : Stored → Stored
  | nodes cells => nodes cells
  | branches cells => branches (cells ++ [b])

/-- What lies in memory. Places are numbered in the order in which they are taken. -/
abbrev Heap := List Stored

namespace Heap

/-- The nodes of the list in a place. -/
def nodesAt? (h : Heap) (r : Ref) : Option (List Cell) :=
  match h[r]? with
  | some (.nodes cells) => some cells
  | _ => none

/-- The branches of the conditional whose list lies in a place. -/
def branchesAt? (h : Heap) (r : Ref) : Option (List BranchCell) :=
  match h[r]? with
  | some (.branches cells) => some cells
  | _ => none

/-- The place of the list that deeper lines go to: the children of an element, the body of a loop,
the body of the last branch of a conditional. -/
def bodyOf? (h : Heap) : Cell → Option Ref
  | .leaf _ => none
  | .element _ _ children _ => some children
  | .conditional branches _ => do (← (← h.branchesAt? branches).getLast?).body
  | .loop _ _ body _ => some body

end Heap

/-- A line that can take children: the list that they go to, and its level. The whole template is
such a line, at a level in front of all others. -/
structure Frame where
  children : Ref
  level : Int
deriving DecidableEq, Repr, Inhabited

/-- A conditional that can take another branch, and whether it has had its `@else`. -/
structure OpenChain where
  branches : Ref
  hasElse : Bool
deriving DecidableEq, Repr, Inhabited

/-- What is known between two lines. -/
structure Builder where
  heap : Heap
  /-- The template without its nodes. -/
  header : Template
  /-- The lines that can take children, the innermost first. -/
  stack : List Frame
  /-- The conditionals that can take another branch, under their levels. -/
  chains : List (Int × OpenChain)
  propsLevel : Option Int
  classesLevel : Option Int
  diagnostics : List Diagnostic
deriving Repr, Inhabited

namespace Builder

/-- The place of the nodes at the top. -/
def root : Ref := 0

/-- Nothing has been read. -/
def start (span : Option Span) : Builder where
  heap := [.nodes []]
  header := ⟨none, none, none, none, none, [], span⟩
  stack := [⟨root, -1⟩]
  chains := []
  propsLevel := none
  classesLevel := none
  diagnostics := []

def note (b : Builder) (ds : List Diagnostic) : Builder :=
  { b with diagnostics := b.diagnostics ++ ds }

def report (b : Builder) (m : Mark) (p : Problem) (length : Nat) : Builder :=
  b.note [m.diagnose p length]

/-! ## Memory -/

def next (b : Builder) : Ref := b.heap.length

def take (b : Builder) (o : Stored) : Builder := { b with heap := b.heap ++ [o] }

/-- Puts a node at the end of the list in a place. -/
def append (b : Builder) (r : Ref) (c : Cell) : Builder :=
  { b with heap := b.heap.modify r (Stored.append c) }

/-- Puts a branch at the end of the list in a place. -/
def appendBranch (b : Builder) (r : Ref) (c : BranchCell) : Builder :=
  { b with heap := b.heap.modify r (Stored.appendBranch c) }

/-- Puts a node that has been read on its own line at the end of the list in a place. If it is an
element, its children are texts and expressions. -/
def add (b : Builder) (r : Ref) (n : Node) : Builder :=
  match n with
  | .element name classes children span =>
    (b.take (.nodes (children.map .leaf))).append r (.element name classes b.next span)
  | n => b.append r (.leaf n)

/-! ## Lines that are open -/

def push (b : Builder) (children : Ref) (level : Int) : Builder :=
  { b with stack := ⟨children, level⟩ :: b.stack }

/-- Closes the lines at a level and deeper. The last one stays. -/
def popTo (level : Int) : List Frame → List Frame
  | f :: g :: fs => if level ≤ f.level then popTo level (g :: fs) else f :: g :: fs
  | fs => fs

/-- Closes the header blocks that a line at a level does not belong to. -/
def closeHeaders (b : Builder) (level : Int) : Builder :=
  let close (base : Option Int) := base.filter (· < level)
  { b with propsLevel := close b.propsLevel, classesLevel := close b.classesLevel }

/-- Closes what a line at a level ends. -/
def settle (b : Builder) (level : Int) (kind : LineKind) : Builder :=
  let shallow := b.chains.filter (·.1 ≤ level)
  { b with
    stack := popTo level b.stack
    chains := if kind.continuesChain then shallow else shallow.filter (·.1 != level) }

/-! ## The header -/

def readId (b : Builder) (m : Mark) (level : Int) (line : Text) : Builder :=
  if !Text.atWordEnd (line.drop 3) then b.report m .idForm line.length
  else if level != 0 then b.report m .idNested line.length
  else if b.header.rawId.isSome then b.report m .idRepeated line.length
  else match TemplateId.read m line with
    | .error d => b.note [d]
    | .ok (at_, value) =>
      { b with
        header.rawId := some value
        header.id := some (TemplateId.logical value)
        header.idSpan := some (at_.span value.length) }

def hasNodes (b : Builder) : Bool := (b.heap.nodesAt? root).any (!·.isEmpty)

def openProps (b : Builder) (m : Mark) (level : Int) (line : Text) : Builder :=
  if level != 0 then b.report m .propsNested line.length
  else if b.hasNodes || b.header.props.isSome then b.report m .propsLate line.length
  else
    { b with
      header.props := some ⟨[], some (m.span line.length)⟩
      propsLevel := some level }

/-- Reads a line of the props block that is open at `base`. There has to be such a block. -/
def readField (b : Builder) (m : Mark) (base level : Int) (line : Text) : Option Builder :=
  match b.header.props with
  | none => none
  | some block =>
    if level != base + 1 then some (b.report m .fieldIndent 1)
    else match PropsField.read m line with
      | .error d => some (b.note [d])
      | .ok field =>
        some { b with header.props := some { block with fields := block.fields ++ [field] } }

def openClasses (b : Builder) (m : Mark) (level : Int) (line : Text) : Builder :=
  if level != 0 then b.report m .classesNested line.length
  else if b.hasNodes || b.header.aliases.isSome then b.report m .classesLate line.length
  else
    { b with
      header.aliases := some ⟨[], some (m.span line.length)⟩
      classesLevel := some level }

/-- Reads a line of the classes block that is open at `base`. There has to be such a block. -/
def readAlias (b : Builder) (m : Mark) (base level : Int) (line : Text) : Option Builder :=
  match b.header.aliases with
  | none => none
  | some block =>
    if level != base + 1 then some (b.report m .aliasIndent 1)
    else match ClassAlias.read m line with
      | .error d => some (b.note [d])
      | .ok a =>
        some { b with header.aliases := some { block with aliases := block.aliases ++ [a] } }

/-! ## Nodes -/

/-- Opens a branch of the conditional whose branches lie in a place. What stands on its line goes
into its body; otherwise the lines below it do. -/
def openBranch (b : Builder) (branches : Ref) (head : BranchHead) (level : Int) : Builder :=
  let body := b.next
  let opened := (b.take (.nodes [])).appendBranch branches ⟨head.test, body, some head.span⟩
  match head.inline with
  | none => opened.push body level
  | some (m, source) =>
    match Node.readInline m source with
    | (none, ds) => opened.note ds
    | (some n, ds) => (opened.note ds).add body n

def readIf (b : Builder) (m : Mark) (parent : Ref) (level : Int) (line : Text) : Builder :=
  match BranchHead.readTested .ifLine m line with
  | .error d => b.note [d]
  | .ok head =>
    let branches := b.next
    let added := (b.take (.branches [])).append parent (.conditional branches (some head.span))
    let chains := (level, ⟨branches, false⟩) :: added.chains.filter (·.1 != level)
    { added with chains := chains }.openBranch branches head level

def readElseIf (b : Builder) (m : Mark) (level : Int) (line : Text) : Builder :=
  match b.chains.lookup level with
  | none => b.report m .orphanElseIf line.length
  | some chain =>
    if chain.hasElse then b.report m .elseIfAfterElse line.length
    else match BranchHead.readTested .elseIf m line with
      | .error d => b.note [d]
      | .ok head => b.openBranch chain.branches head level

def readElse (b : Builder) (m : Mark) (level : Int) (line : Text) : Builder :=
  match b.chains.lookup level with
  | none => b.report m .orphanElse line.length
  | some chain =>
    if chain.hasElse then b.report m .secondElse line.length
    else
      let close (c : Int × OpenChain) :=
        if c.1 == level then (c.1, { c.2 with hasElse := true }) else c
      { b with chains := b.chains.map close }.openBranch chain.branches
        (BranchHead.readElse m line) level

def readLoop (b : Builder) (m : Mark) (parent : Ref) (level : Int) (line : Text) : Builder :=
  match Loop.read? line with
  | none => b.report m .loopForm line.length
  | some (variableName, iterable) =>
    let body := b.next
    let cell := .loop variableName iterable body (some (m.span line.length))
    ((b.take (.nodes [])).append parent cell).push body level

def readElement (b : Builder) (m : Mark) (parent : Ref) (level : Int) (line : Text) : Builder :=
  match Node.readElement m line with
  | .error d => b.note [d]
  | .ok (n, ds) => ((b.note ds).add parent n).push b.next level

/-- Reads a line of a kind. Its node goes to the end of the list in the place `parent`. -/
def readKind (b : Builder) (m : Mark) (parent : Ref) (level : Int) (line : Text) :
    LineKind → Builder
  | .id => b.readId m level line
  | .props => b.openProps m level line
  | .classes => b.openClasses m level line
  | .ifLine => b.readIf m parent level line
  | .elseIf => b.readElseIf m level line
  | .elseLine => b.readElse m level line
  | .forLine => b.readLoop m parent level line
  | .pipe =>
    let (node, ds) := Pipe.read m .block line
    (b.note ds).add parent node
  | .expression =>
    match Node.readExpression m line with
    | .error d => b.note [d]
    | .ok node => b.add parent node
  | .element => b.readElement m parent level line

/-- Reads a line outside the header blocks. There has to be an open line before it, and one after
it has closed some. -/
def readBody (b : Builder) (m : Mark) (level : Int) (line : Text) : Option Builder := do
  let top ← b.stack.head?
  let b := if top.level + 1 < level then b.report m .indentJump 1 else b
  let level := min level (top.level + 1)
  let kind := LineKind.ofText line
  let b := b.settle level kind
  let parent ← b.stack.head?
  b.readKind m parent.children level line kind

/-- Reads a line whose margin is in order. -/
def readLevel (b : Builder) (m : Mark) (level : Int) (line : Text) : Option Builder :=
  let b := b.closeHeaders level
  match b.propsLevel, b.classesLevel with
  | some base, _ => b.readField m base level line
  | none, some base => b.readAlias m base level line
  | none, none => b.readBody m level line

/-- Reads a line. There is no result if something is not there that has to be. -/
def step (b : Builder) (l : Line) : Option Builder :=
  match Margin.ofLine l.text with
  | .blank => some b
  | .tab column => some (b.report (l.mark column) .tab 1)
  | .odd column => some (b.report (l.mark column) .oddIndent 1)
  | .level level content => b.readLevel (l.mark (2 * level + 1)) level content

end Builder

end Offside
