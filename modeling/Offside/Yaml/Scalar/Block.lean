import Offside.Yaml.Fault
import Offside.Yaml.Place

/-!
Scalars of whole lines. A head says what happens to the end of the scalar and how far its lines are
indented; if it does not say how far, the first line that is not blank shows it.
-/
namespace Offside.Yaml.Block

/-- What happens to the ends of lines at the end of a block. -/
inductive Chomping
  | strip
  | clip
  | keep
deriving DecidableEq, Repr

structure Head where
  chomping : Chomping
  increment : Option Nat

def chomping? : Char → Option Chomping
  | '+' => some .keep
  | '-' => some .strip
  | _ => none

/-- Reads a digit other than zero, if there is a digit. -/
def readIncrement (s : Text) : Except Fault (Option Nat × Text) :=
  match s with
  | c :: s' =>
    if c == '0' then malformed
    else if c.isDigit then .ok (some (c.toNat - 48), s')
    else .ok (none, s)
  | [] => .ok (none, [])

/-- Reads the signs of a head: one for the end and a digit, in any order. -/
def readSigns (s : Text) : Except Fault (Head × Text) :=
  match s.head?.bind chomping? with
  | some chomping => (readIncrement (s.drop 1)).map fun (n, s) => (⟨chomping, n⟩, s)
  | none => do
    let (n, s) ← readIncrement s
    match n, s.head?.bind chomping? with
    | some _, some chomping => return (⟨chomping, n⟩, s.drop 1)
    | _, _ => return (⟨.clip, n⟩, s)

/-- Reads a head up to the end of its line. A comment may follow after a space. -/
def readHead (p : Place) : Except Fault (Head × Place) := do
  let (head, s) ← readSigns p.rest
  if !atStop s then malformed
  let q := (p.skip (p.rest.length - s.length)).skipWhile (· == ' ')
  let q := if q.rest.head? == some '#' then q.skipWhile (!isLineEnd ·) else q
  if !atBreak q.rest then malformed
  return (head, q.next)

/-- What looking for the first line has found: the ends of blank lines, how far the first and the
farthest of these lines are indented, and where the search stopped. -/
structure Search where
  breaks : Text
  first : Option Nat
  most : Nat
  place : Place

/-- Looks for the first line that is not blank. -/
def search : Nat → Search → Search
  | 0, found => found
  | steps + 1, ⟨breaks, first, most, p⟩ =>
    let q := p.skipWhile (· == ' ')
    let most := if q.index == p.index then most else max most q.column
    match q.rest with
    | c :: _ =>
      if isBreak c then
        search steps ⟨breaks ++ [breakText c], first.or (some q.column), most, q.next⟩
      else ⟨breaks, first, most, q⟩
    | [] => ⟨breaks, first, most, q⟩

/-- Reads the ends of blank lines. Of the spaces in a line only those up to a column are passed. -/
def readBreaks (indent : Nat) : Nat → Text → Place → Text × Place
  | 0, found, p => (found, p)
  | steps + 1, found, p =>
    let q := p.skip (min (p.rest.takeWhile (· == ' ')).length (indent - p.column))
    match q.rest with
    | c :: _ =>
      if isBreak c then readBreaks indent steps (found ++ [breakText c]) q.next else (found, q)
    | [] => (found, q)

/-- What the lines of a block come to: what they say, the end of the last one, the ends of the blank
lines behind it, and the place behind those. -/
structure Lines where
  text : Text
  ending : Text
  breaks : Text
  place : Place

/-- Reads a line that starts at the indent, and the lines behind it. In a folded block the end of a
line is a space, unless it or the next line starts with a blank. At the top of a document its mark
ends the block. -/
def readLines (folded : Bool) (indent : Nat) (atTop : Bool) : Nat → Lines → Lines
  | 0, b => b
  | steps + 1, ⟨text, ending, breaks, p⟩ =>
    if p.column != indent || p.atEnd then ⟨text, ending, breaks, p⟩
    else
      let content := p.rest.takeWhile (!isLineEnd ·)
      let text := text ++ breaks ++ content
      let q := p.skip content.length
      let ending := (q.rest.take 1).map breakText
      let (breaks, r) := readBreaks indent (q.rest.length + 1) [] q.next
      if (atTop && r.atDocumentMark) || r.column != indent || r.atEnd then ⟨text, ending, breaks, r⟩
      else
        let folds := folded && ending == ['\n'] && !content.head?.any Text.isLineBlank &&
          !r.rest.head?.any Text.isLineBlank
        let joint := if !folds then ending else if breaks.isEmpty then [' '] else []
        readLines folded indent atTop steps ⟨text ++ joint, ending, breaks, r⟩

/-- What a block says after all its lines. -/
def Lines.shown (b : Lines) : Chomping → Text
  | .strip => b.text
  | .clip => b.text ++ b.ending
  | .keep => b.text ++ b.ending ++ b.breaks

/-- Reads a block from the sign on that starts it. `outer` is the indent of what it belongs to. -/
def read (folded : Bool) (outer : Int) (p : Place) : Except Fault (Text × Place) := do
  let (head, q) ← readHead p.next
  let least := (outer + 1).toNat
  let steps := q.rest.length + 1
  match head.increment with
  | some n =>
    let indent := max least 1 + n - 1
    let (breaks, r) := readBreaks indent steps [] q
    let b := readLines folded indent false steps ⟨[], [], breaks, r⟩
    return (b.shown head.chomping, b.place)
  | none =>
    let found := search steps ⟨[], none, 0, q⟩
    if found.first.any fun first => 0 < first && first < found.most then malformed
    let b := readLines folded (max least found.most) (least == 0) steps
      ⟨[], [], found.breaks, found.place⟩
    return (b.shown head.chomping, b.place)

end Offside.Yaml.Block
