import Offside.Template.Reader

/-!
Keeping account of branches and loops while a template is read. Each is noted when its line opens
it, and marked when a node is put into it, be it from its own line or from one below. Those that are
not marked in the end are the ones without a body, so the tree need not be walked for them.
-/
namespace Offside

/-- A branch or a loop that a line has opened, and whether a node has been put into it. -/
structure Slot where
  isLoop : Bool
  span : Option Span
  filled : Bool
deriving DecidableEq, Repr, Inhabited

namespace Slot

/-- The branches, or the loops, that are not filled. -/
def empties (isLoop : Bool) (qs : List Slot) : List Slot :=
  qs.filter fun q => q.isLoop == isLoop && !q.filled

/-- What is reported about a slot that stays empty. -/
def report (q : Slot) : Diagnostic :=
  .ofProblem (if q.isLoop then .emptyLoop else .emptyBranch) q.span

end Slot

/-- The branches and loops so far, and the lines that can take children, the innermost first. Each
line has its level, and the place of the slot that its children fill. -/
structure Ledger where
  slots : List Slot
  frames : List (Nat × Option Nat)
deriving Repr, Inhabited

namespace Ledger

def start : Ledger := ⟨[], []⟩

/-- The slot that the next node fills, unless it belongs to an element or stands at the top. -/
def top? (g : Ledger) : Option Nat := g.frames.head?.bind Prod.snd

/-- Puts a node into the innermost line that can take children. -/
def fill (g : Ledger) : Ledger :=
  match g.top? with
  | none => g
  | some place => { g with slots := g.slots.modify place fun q => { q with filled := true } }

/-- Lets the lines below a line at a level go into the slot at a place. -/
def push (g : Ledger) (level : Nat) (place : Option Nat) : Ledger :=
  { g with frames := (level, place) :: g.frames }

/-- Notes a slot that a line at a level opens. With `opens` the lines below go into it. -/
def add (g : Ledger) (q : Slot) (level : Nat) (opens : Bool) : Ledger :=
  let noted := { g with slots := g.slots ++ [q] }
  if opens then noted.push level (some g.slots.length) else noted

def openBranch (g : Ledger) (head : BranchHead) (level : Nat) : Ledger :=
  let (branch, _) := Outliner.branchOf head
  g.add ⟨false, some head.span, !branch.body.isEmpty⟩ level head.inline.isNone

def settle (g : Ledger) (level : Nat) : Ledger :=
  { g with frames := g.frames.dropWhile (level ≤ ·.1) }

def readKind (g : Ledger) (s : Outliner) (m : Mark) (level : Nat) (line : Text) :
    LineKind → Ledger
  | .id | .props | .classes => g
  | .ifLine =>
    match BranchHead.readTested .ifLine m line with
    | .error _ => g
    | .ok head => g.fill.openBranch head level
  | .elseIf =>
    match s.chainAt? level with
    | none => g
    | some chain =>
      if chain.hasElse then g
      else match BranchHead.readTested .elseIf m line with
        | .error _ => g
        | .ok head => g.openBranch head level
  | .elseLine =>
    match s.chainAt? level with
    | none => g
    | some chain =>
      if chain.hasElse then g else g.openBranch (BranchHead.readElse m line) level
  | .forLine =>
    match Loop.read? line with
    | none => g
    | some _ => g.fill.add ⟨true, some (m.span line.length), false⟩ level true
  | .pipe => g.fill
  | .expression =>
    match Node.readExpression m line with
    | .error _ => g
    | .ok _ => g.fill
  | .element =>
    match Node.readElement m line with
    | .error _ => g
    | .ok _ => g.fill.push level none

/-- Takes a line outside the header blocks into account. -/
def readBody (g : Ledger) (s : Outliner) (m : Mark) (level : Nat) (line : Text) : Ledger :=
  let level := min level s.nextLevel
  let kind := LineKind.ofText line
  (g.settle level).readKind (s.settle level kind) m level line kind

/-- Takes a line into account; `s` is what is known before the line. -/
def step (g : Ledger) (s : Outliner) (l : Line) : Ledger :=
  match Margin.ofLine l.text with
  | .blank | .tab _ | .odd _ => g
  | .level level content =>
    let s := s.closeHeaders level
    match s.propsLevel, s.classesLevel with
    | none, none => g.readBody s (l.mark (2 * level + 1)) level content
    | _, _ => g

/-- What is reported about the slots that stay empty: the branches first, and then the loops. -/
def reports (g : Ledger) : List Diagnostic :=
  (Slot.empties false g.slots ++ Slot.empties true g.slots).map Slot.report

end Ledger

namespace Template

/-- Reads a line and takes it into account. -/
def stepNoting (state : Outliner × Ledger) (l : Line) : Outliner × Ledger :=
  (state.1.step l, state.2.step state.1 l)

/-- The template and the account of it after the last line. -/
def outlineNoting (s : Text) : Outliner × Ledger :=
  (Line.ofText s).foldl stepNoting (Outliner.start (some (wholeSpan s)), Ledger.start)

/-- Reads a template, keeping account of its branches and loops. -/
def readNoting (s : Text) : Reading :=
  let (last, ledger) := outlineNoting (Text.unifyNewlines s)
  ⟨last.template, last.diagnostics ++ ledger.reports⟩

end Template

end Offside
