import Offside.Yaml.Fault
import Offside.Text.Utf8
import Offside.Yaml.Place

/-!
The words of settings: signs, scalars, and the starts and ends of collections. Names of nodes, tags
and directives start with a sign of their own; each reader cuts one off a text and gives what
follows.
-/
namespace Offside.Yaml

/-- A word of settings. -/
inductive Token
  | versionDirective (version : Version)
  | tagDirective (handle lead : Text)
  /-- A directive that says nothing. -/
  | otherDirective
  | documentStart
  | documentEnd
  | blockSequenceStart
  | blockMappingStart
  | blockEnd
  | flowSequenceStart
  | flowSequenceEnd
  | flowMappingStart
  | flowMappingEnd
  | blockEntry
  | flowEntry
  | key
  | value
  | alias (name : Text)
  | anchor (name : Text)
  /-- A tag with a handle before it, or a whole one. -/
  | tag (handle : Option Text) (rest : Text)
  | scalar (isPlain : Bool) (text : Text)
  /-- What follows cannot be read. -/
  | broken (fault : Fault)
deriving DecidableEq, Repr

def isAnchorChar (c : Char) : Bool :=
  let n := c.toNat
  !([',', '[', ']', '\x7b', '\x7d'].contains c) && c != byteOrderMark &&
    ((0x21 ≤ n && n ≤ 0x7E) || (0xA0 ≤ n && isAllowed c))

/-- Whether the name of a node can end before a text. -/
def endsAnchor (s : Text) : Bool :=
  atGap s || atBreak s || s.head?.any fun c => "?:,[]\x7b\x7d%@\x60".toList.contains c

/-- Cuts off the name of a node, behind its sign. -/
def cutAnchor (s : Text) : Except Fault (Text × Text) :=
  let name := s.takeWhile isAnchorChar
  let rest := s.drop name.length
  if name.isEmpty || !endsAnchor rest then malformed else .ok (name, rest)

def isHandleChar (c : Char) : Bool := c.isAlphanum || c == '-' || c == '_'

def isTagChar (v : Version) (c : Char) : Bool :=
  c.isAlphanum || "-;/?:@&=+$,_.!~*\x27()[]%".toList.contains c || (v.isNewer && c == '#')

/-- Puts the bytes of a run of escapes before what follows them. -/
def joinEscapes (bytes : List Nat) (rest : Text) : Option Text :=
  (Text.Utf8.decode? bytes).map (· ++ rest)

/-- A tag without its escapes. A percent sign starts one; the bytes of neighbouring escapes make up
characters. `bytes` are those of the escapes just before the text. -/
def unescapeTag (bytes : List Nat) : Text → Option Text
  | [] => joinEscapes bytes []
  | '%' :: a :: b :: s =>
    match Text.hexValue? a, Text.hexValue? b with
    | some a, some b => unescapeTag (bytes ++ [16 * a + b]) s
    | _, _ => none
  | '%' :: _ => none
  | c :: s => (unescapeTag [] s).bind fun rest => joinEscapes bytes (c :: rest)

/-- Cuts off the characters of a tag. -/
def cutTagText (v : Version) (s : Text) : Except Fault (Text × Text) :=
  let written := s.takeWhile (isTagChar v)
  match unescapeTag [] written with
  | some word => if written.isEmpty then malformed else .ok (word, s.drop written.length)
  | none => malformed

/-- Cuts off a handle, from its first exclamation mark to its second. -/
def cutHandle (s : Text) : Except Fault (Text × Text) :=
  match s with
  | '!' :: s =>
    let name := s.takeWhile isHandleChar
    match s.drop name.length with
    | '!' :: rest => .ok ('!' :: name ++ ['!'], rest)
    | _ => malformed
  | _ => malformed

/-- Cuts off the handle of a directive, which can be a single exclamation mark. -/
def cutDirectiveHandle (s : Text) : Except Fault (Text × Text) :=
  match s with
  | '!' :: ' ' :: rest => .ok (['!'], ' ' :: rest)
  | s => cutHandle s

/-- Cuts off a tag behind one or two exclamation marks, which are `short`. -/
def cutTagRest (v : Version) (short s : Text) : Except Fault (Option Text × Text × Text) :=
  if s.head? == some '<' then do
    let (word, rest) ← cutTagText v (s.drop 1)
    if rest.head? != some '>' then malformed
    return (none, word, rest.drop 1)
  else if atGap s then .ok (none, short, s)
  else do
    let hasHandle := (s.takeWhile fun c => c != ' ' && !isBreak c).contains '!'
    let (handle, s) ← if hasHandle then cutHandle ('!' :: s) else .ok (short, s)
    let (word, rest) ← cutTagText v s
    return (some handle, word, rest)

/-- Cuts off a tag: its handle, the rest of it, and what follows. -/
def cutTag (v : Version) (s : Text) : Except Fault (Option Text × Text × Text) := do
  let r ← match s with
    | '!' :: '!' :: s => cutTagRest v ['!', '!'] s
    | s => cutTagRest v ['!'] (s.drop 1)
  if !atStop r.2.2 then malformed
  return r

def isDirectiveChar (c : Char) : Bool := isHandleChar c || c == ':' || c == '.'

def cutNumber (s : Text) : Except Fault (Nat × Text) :=
  let digits := s.takeWhile Char.isDigit
  if digits.isEmpty then malformed
  else .ok (Numeral.ofDigits 10 digits, s.drop digits.length)

/-- Cuts off the version that a directive says. -/
def cutVersion (s : Text) : Except Fault (Token × Text) := do
  let (major, s) ← cutNumber (s.dropWhile (· == ' '))
  if s.head? != some '.' then malformed
  let (minor, s) ← cutNumber (s.drop 1)
  if !atStop s then malformed
  return (.versionDirective ⟨major, minor⟩, s)

/-- Cuts off what a directive says about a handle. -/
def cutTagDirective (v : Version) (s : Text) : Except Fault (Token × Text) := do
  let (handle, s) ← cutDirectiveHandle (s.dropWhile (· == ' '))
  if s.head? != some ' ' then malformed
  let (lead, s) ← cutTagText v (s.dropWhile (· == ' '))
  if !atStop s then malformed
  return (.tagDirective handle lead, s)

/-- Cuts off a directive behind its percent sign, with the end of its line. A comment may stand
before that. -/
def cutDirective (v : Version) (s : Text) : Except Fault (Token × Text) := do
  let name := s.takeWhile isDirectiveChar
  let rest := s.drop name.length
  if name.isEmpty || !atStop rest then malformed
  let (t, rest) ←
    if name == "YAML".toList then cutVersion rest
    else if name == "TAG".toList then cutTagDirective v rest
    else .ok (.otherDirective, rest.dropWhile (!isLineEnd ·))
  let rest := rest.dropWhile (· == ' ')
  let rest := if rest.head? == some '#' then rest.dropWhile (!isLineEnd ·) else rest
  if !atBreak rest then malformed
  return (t, rest.drop 1)

end Offside.Yaml
