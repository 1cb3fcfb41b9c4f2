import Offside.Yaml.Scalar.Block
import Offside.Yaml.Scalar.Plain
import Offside.Yaml.Scalar.Quoted
import Offside.Yaml.Token

/-!
The tokens of a text. Where a collection starts is known from the columns of its lines; that a key
stands before a colon is known only when the colon is reached, so its token goes in front of tokens
that have been made already. A fault ends the tokens; those that a key could still precede are not
known then, and are left out.
-/
namespace Offside.Yaml

/-- A place where a key may have started: where its token goes, and whether a colon must follow. -/
structure KeyStart where
  number : Nat
  index : Nat
  line : Nat
  column : Nat
  required : Bool
deriving DecidableEq, Repr

/-- Where the reading of tokens has come to. -/
structure Scan where
  place : Place
  version : Version
  /-- The column of the innermost block; none outside all blocks is −1. -/
  indent : Int
  /-- The columns of the blocks around it. -/
  indents : List Int
  /-- The brackets that are open, the innermost first: whether they are square ones. -/
  brackets : List Bool
  /-- Whether a key can start here. -/
  keyAllowed : Bool
  /-- Where a key may have started, for each open bracket and outside of all. -/
  keys : List (Option KeyStart)
  /-- The tokens, the last one first. -/
  tokens : List Token
  count : Nat
  finished : Bool

namespace Scan

/-- The start of a text. A mark of the byte order there does not count. -/
def ofText (s : Text) : Scan :=
  let start := Place.ofText s
  let place := if s.head? == some byteOrderMark then start.next else start
  ⟨place, .current, -1, [], [], true, [none], [], 0, false⟩

def inBrackets (s : Scan) : Bool := !s.brackets.isEmpty

def push (s : Scan) (t : Token) : Scan := { s with tokens := t :: s.tokens, count := s.count + 1 }

/-- Adds a token in front of others, as the one with a number. -/
def insert (s : Scan) (number : Nat) (t : Token) : Scan :=
  let later := s.count - number
  { s with
    tokens := s.tokens.take later ++ t :: s.tokens.drop later
    count := s.count + 1 }

def skip (s : Scan) (n : Nat) : Scan := { s with place := s.place.skip n }

/-- Goes on where only some text is left. -/
def skipTo (s : Scan) (rest : Text) : Scan := s.skip (s.place.rest.length - rest.length)

/-- Whether a key start is too far back: a key stands on one line and is short. -/
def isStale (s : Scan) (k : KeyStart) : Bool :=
  k.line != s.place.line || k.index + 1024 < s.place.index

/-- Forgets key starts that are too far back. A colon must have followed where it has to. -/
def dropStale (s : Scan) : Except Fault Scan :=
  if s.keys.any (·.any fun k => s.isStale k && k.required) then malformed
  else .ok { s with keys := s.keys.map (·.filter (!s.isStale ·)) }

/-- Forgets the innermost key start. -/
def forgetKey (s : Scan) : Except Fault Scan :=
  match s.keys with
  | some k :: keys => if k.required then malformed else .ok { s with keys := none :: keys }
  | _ => .ok s

/-- Remembers that a key may start here. -/
def saveKey (s : Scan) : Except Fault Scan :=
  if s.keyAllowed then do
    let s ← s.forgetKey
    let k : KeyStart := ⟨s.count, s.place.index, s.place.line, s.place.column,
      !s.inBrackets && s.indent == s.place.column⟩
    return { s with keys := some k :: s.keys.drop 1 }
  else .ok s

/-- Opens a block at a column, unless one is open there. Its token is added at the end, or as the
one with a number. -/
def rollIndent (s : Scan) (column : Nat) (number : Option Nat) (t : Token) : Scan :=
  if !s.inBrackets && s.indent < column then
    let s := { s with indents := s.indent :: s.indents, indent := column }
    match number with
    | some n => s.insert n t
    | none => s.push t
  else s

/-- Closes the innermost blocks that start right of a column; the list is of those around. -/
def closeBlocks (s : Scan) (column : Int) : List Int → Scan
  | [] => s
  | outer :: indents =>
    if column < s.indent then
      closeBlocks { (s.push .blockEnd) with indent := outer, indents := indents } column indents
    else s

/-- Closes the blocks that start right of a column. Brackets keep them open. -/
def unrollIndent (s : Scan) (column : Int) : Scan :=
  if s.inBrackets then s else s.closeBlocks column s.indents

/-- Goes on to the next word, over blanks, ends of lines and comments. A tab is a blank only within
brackets. Outside of them a key can start on each line. -/
def skipGaps (s : Scan) : Nat → Scan
  | 0 => s
  | steps + 1 =>
    let p := s.place.skipWhile fun c => c == ' ' || (s.inBrackets && c == '\t')
    let p := if p.rest.head? == some '#' then p.skipWhile (!isLineEnd ·) else p
    match p.rest with
    | [] => { s with place := p }
    | c :: _ =>
      if isBreak c then
        skipGaps { s with place := p.next, keyAllowed := s.keyAllowed || !s.inBrackets } steps
      else { s with place := p }

/-- Reads a sign that opens brackets. -/
def openBracket (s : Scan) (isSquare : Bool) (t : Token) : Except Fault Scan := do
  let s ← s.saveKey
  return { s with
    keys := none :: s.keys, brackets := isSquare :: s.brackets
    keyAllowed := true }.push t |>.skip 1

/-- Reads a sign that closes brackets. -/
def closeBracket (s : Scan) (t : Token) : Except Fault Scan := do
  let s ← s.forgetKey
  let keys := if s.inBrackets then s.keys.drop 1 else s.keys
  return { s with
    keys := keys, brackets := s.brackets.drop 1, keyAllowed := false }.push t |>.skip 1

def comma (s : Scan) : Except Fault Scan := do
  let s ← s.forgetKey
  return { s with keyAllowed := true }.push .flowEntry |>.skip 1

def dash (s : Scan) : Except Fault Scan := do
  if !s.inBrackets && !s.keyAllowed then malformed
  let s := s.rollIndent s.place.column none .blockSequenceStart
  let s ← s.forgetKey
  return { s with keyAllowed := true }.push .blockEntry |>.skip 1

def question (s : Scan) : Except Fault Scan := do
  if !s.inBrackets && !s.keyAllowed then malformed
  let s := s.rollIndent s.place.column none .blockMappingStart
  let s ← s.forgetKey
  return { s with keyAllowed := !s.inBrackets }.push .key |>.skip 1

def colon (s : Scan) : Except Fault Scan :=
  match s.keys with
  | some k :: keys =>
    let s := (s.insert k.number .key).rollIndent k.column (some k.number) .blockMappingStart
    .ok ({ s with keys := none :: keys, keyAllowed := false }.push .value |>.skip 1)
  | _ => do
    if !s.inBrackets && !s.keyAllowed then malformed
    let s := s.rollIndent s.place.column none .blockMappingStart
    return { s with keyAllowed := !s.inBrackets }.push .value |>.skip 1

/-- Reads the name behind a star or an ampersand. -/
def name (s : Scan) (t : Text → Token) : Except Fault Scan := do
  let s ← s.saveKey
  let (word, rest) ← cutAnchor (s.place.rest.drop 1)
  return { s with keyAllowed := false }.push (t word) |>.skipTo rest

def tag (s : Scan) : Except Fault Scan := do
  let s ← s.saveKey
  let (handle, word, rest) ← cutTag s.version s.place.rest
  return { s with keyAllowed := false }.push (.tag handle word) |>.skipTo rest

def block (s : Scan) (folded : Bool) : Except Fault Scan := do
  let s ← s.forgetKey
  let (text, place) ← Block.read folded s.indent s.place
  return { s with place := place, keyAllowed := true }.push (.scalar false text)

def quoted (s : Scan) (quote : Char) : Except Fault Scan := do
  let s ← s.saveKey
  let (text, place) ← Quoted.read quote s.place
  return { s with place := place, keyAllowed := false }.push (.scalar false text)

def plain (s : Scan) : Except Fault Scan := do
  let s ← s.saveKey
  let e := Plain.read s.version s.inBrackets (s.indent + 1) s.place
  return { s with place := e.place, keyAllowed := e.atLineStart }.push (.scalar true e.text)

/-- Closes all blocks before a mark between documents. -/
def beforeMark (s : Scan) : Except Fault Scan := do
  let s ← (s.unrollIndent (-1)).forgetKey
  return { s with keyAllowed := false }

/-- Reads a directive with the end of its line. What it says of the version holds from there on. -/
def directive (s : Scan) : Except Fault Scan := do
  let s ← s.beforeMark
  let (t, rest) ← cutDirective s.version (s.place.rest.drop 1)
  let version := match t with
    | .versionDirective v => v
    | _ => s.version
  return { s with version := version }.push t |>.skipTo rest

/-- Reads the mark of a document. -/
def documentMark (s : Scan) : Except Fault Scan := do
  let s ← s.beforeMark
  let t := if s.place.rest.head? == some '-' then Token.documentStart else .documentEnd
  return s.push t |>.skip 3

/-- Whether a colon before a text stands between a key and its value. In braces it always does,
unless the last token is such a colon and a key could still precede it; `isHeld` says the latter. -/
def isColon (s : Scan) (isHeld : Bool) (rest : Text) : Bool :=
  match s.brackets with
  | [] => atGap rest
  | isSquare :: _ =>
    s.version.isOld || atGap rest ||
      !(isSquare || (isHeld && s.tokens.head? == some .value))

/-- Characters that no plain scalar starts with. -/
def indicators : Text := "-?:,[]\x7b\x7d#&*!|>\x27\"%@\x60".toList

/-- Whether a plain scalar can start with a character before a text. -/
def startsPlain (s : Scan) (c : Char) (rest : Text) : Bool :=
  !(Text.isLineBlank c || isBreak c || indicators.contains c) ||
    (!atGap rest && (c == '-' || (!s.inBrackets && (c == '?' || c == ':')))) ||
    (c == ':' && s.inBrackets && !s.version.isOld && !rest.head?.any Text.isLineBlank)

def finish (s : Scan) : Except Fault Scan := do
  let s ← (s.unrollIndent (-1)).forgetKey
  return { s with finished := true }

def step (s : Scan) : Except Fault Scan := do
  let s ← s.dropStale
  let isHeld := s.keys.any Option.isSome
  let s ← (s.skipGaps (s.place.rest.length + 1)).dropStale
  let s := s.unrollIndent s.place.column
  match s.place.rest with
  | [] => s.finish
  | c :: rest =>
    let flow := s.inBrackets
    if s.place.column == 0 && c == '%' then s.directive
    else if s.place.atDocumentMark then s.documentMark
    else if c == '[' then s.openBracket true .flowSequenceStart
    else if c == '\x7b' then s.openBracket false .flowMappingStart
    else if c == ']' then s.closeBracket .flowSequenceEnd
    else if c == '\x7d' then s.closeBracket .flowMappingEnd
    else if c == ',' then s.comma
    else if c == '-' && atGap rest then s.dash
    else if c == '?' && (flow || atGap rest) then s.question
    else if c == ':' && s.isColon isHeld rest then s.colon
    else if c == '*' then s.name .alias
    else if c == '&' then s.name .anchor
    else if c == '!' then s.tag
    else if c == '|' && !flow then s.block false
    else if c == '>' && !flow then s.block true
    else if c == '\x27' || c == '"' then s.quoted c
    else if s.startsPlain c rest then s.plain
    else malformed

/-- The number of the first token that a key could still precede. -/
def firstOpen (s : Scan) : Nat :=
  s.keys.foldl (fun n k =>
    match k.filter fun k => k.required || !s.isStale k with
    | some k => min n k.number
    | none => n) s.count

/-- The tokens up to a fault. -/
def breakOff (s : Scan) (f : Fault) : List Token :=
  (s.tokens.drop (s.count - s.firstOpen)).reverse ++ [.broken f]

/-- Reads tokens up to the end of the text. -/
def run : Nat → Scan → List Token
  | 0, s => s.breakOff .malformed
  | steps + 1, s =>
    if s.finished then s.tokens.reverse
    else
      match step s with
      | .ok s => run steps s
      | .error f => s.breakOff f

end Scan

/-- The tokens of a text. A text with a character that it may not have has none. -/
def Token.ofText (s : Text) : List Token :=
  if s.all isAllowed then (Scan.ofText s).run (s.length + 2) else [.broken .malformed]

end Offside.Yaml
