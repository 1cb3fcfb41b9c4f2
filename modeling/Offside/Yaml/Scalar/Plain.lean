import Offside.Yaml.Place
import Offside.Yaml.Fault

/-!
Plain scalars. One is made of runs with gaps between them; a gap shows only if another run follows.
-/
namespace Offside.Yaml

/-- What reading a scalar comes to: its text, and the place behind it. -/
structure ScalarEnd where
  text : Text
  place : Place
  /-- Whether a line has ended behind the scalar. -/
  atLineStart : Bool

/-- Characters that brackets and commas are made of. -/
def isFlowSign (c : Char) : Bool := [',', '[', ']', '\x7b', '\x7d'].contains c

namespace Plain

/-- Whether a run goes on with a character before a text. -/
def keeps (v : Version) (flow : Bool) (c : Char) (s : Text) : Bool :=
  if c == ':' then !atGap s
  else if c == '?' then !(v.isOld && flow)
  else !isGap c && !(flow && isFlowSign c)

/-- The number of characters of the run at the start of a text. -/
def runLength (v : Version) (flow : Bool) : Text → Nat
  | [] => 0
  | c :: s => if keeps v flow c s then runLength v flow s + 1 else 0

/-- What stands between two runs, and the place behind it. It stands for nothing at the mark of a
document, which ends the scalar. -/
structure Gap where
  text : Option Text
  place : Place
  /-- Whether a line has ended. -/
  hasBreak : Bool

/-- Reads the ends of lines behind the first one. `found` is what has been read, in reverse. -/
def readBreaks : Nat → Text → Place → Option Text × Place
  | 0, found, p => (some found.reverse, p)
  | steps + 1, found, p =>
    if atMark p.rest then (none, p)
    else
      let q := p.skipWhile (· == ' ')
      match q.rest with
      | c :: _ =>
        if isBreak c then readBreaks steps (breakText c :: found) q.next
        else (some found.reverse, q)
      | [] => (some found.reverse, q)

/-- Reads what stands behind a run. A tab belongs to no gap. -/
def readGap (p : Place) : Gap :=
  let q := p.skipWhile (· == ' ')
  let blanks : Gap := ⟨some (p.rest.takeWhile (· == ' ')), q, false⟩
  match q.rest with
  | c :: _ =>
    if isBreak c then
      let (more, r) := readBreaks (q.rest.length + 1) [] q.next
      ⟨more.map (foldBreaks c), r, true⟩
    else blanks
  | [] => blanks

/-- Reads runs. `indent` is the least column of a line that belongs to a scalar outside brackets;
`text` and `gap` are what has been read, and whether a line has ended in the gap. -/
def readRuns (v : Version) (flow : Bool) (indent : Int) :
    Nat → Text → Text → Bool → Place → ScalarEnd
  | 0, text, _, hasBreak, p => ⟨text, p, hasBreak⟩
  | steps + 1, text, gap, hasBreak, p =>
    let n := runLength v flow p.rest
    if n == 0 || p.rest.head? == some '#' then ⟨text, p, hasBreak⟩
    else
      let text := text ++ gap ++ p.rest.take n
      let g := readGap (p.skip n)
      let stop : ScalarEnd := ⟨text, g.place, g.hasBreak⟩
      match g.text with
      | none | some [] => stop
      | some gap =>
        if g.place.rest.head? == some '#' || (!flow && (g.place.column : Int) < indent) then stop
        else readRuns v flow indent steps text gap g.hasBreak g.place

def read (v : Version) (flow : Bool) (indent : Int) (p : Place) : ScalarEnd :=
  readRuns v flow indent (p.rest.length + 1) [] [] false p

end Plain

end Offside.Yaml
