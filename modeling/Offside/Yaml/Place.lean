import Offside.Text.Basic

/-!
Places in a text of settings, and the characters that matter to its layout.
-/
namespace Offside.Yaml

/-- A character that ends a line of a scalar. -/
def isBreak (c : Char) : Bool := c == '\n' || c == '\u0085' || c == '\u2028' || c == '\u2029'

/-- A character that ends a line of signs. -/
def isLineEnd (c : Char) : Bool := c == '\n' || c == '\u0085'

def isGap (c : Char) : Bool := Text.isLineBlank c || isLineEnd c

/-- Whether a text goes on with a blank or the end of a line, or has ended. -/
def atGap (s : Text) : Bool := s.head?.all isGap

/-- Whether a text goes on with the end of a line of a scalar, or has ended. -/
def atBreak (s : Text) : Bool := s.head?.all isBreak

/-- Whether a text goes on with a space or the end of a line of a scalar, or has ended. -/
def atStop (s : Text) : Bool := s.head?.all fun c => c == ' ' || isBreak c

/-- What the end of a line stands for in a scalar. -/
def breakText (c : Char) : Char := if c == '\u0085' then '\n' else c

/-- A character that a text of settings may hold. -/
def isAllowed (c : Char) : Bool :=
  let n := c.toNat
  n == 9 || n == 10 || n == 13 || (0x20 ≤ n && n ≤ 0x7E) || n == 0x85 ||
    (0xA0 ≤ n && n ≤ 0xD7FF) || (0xE000 ≤ n && n ≤ 0xFFFD) || 0x10000 ≤ n

/-- The mark of the byte order. It takes no room in its line. -/
def byteOrderMark : Char := '\ufeff'

/-- Whether a text starts with the mark of a document. -/
def atMark : Text → Bool
  | '-' :: '-' :: '-' :: s => atGap s
  | '.' :: '.' :: '.' :: s => atGap s
  | _ => false

/-- A place: how many characters and lines precede it, its column, and what follows. -/
structure Place where
  index : Nat
  line : Nat
  column : Nat
  rest : Text
deriving DecidableEq, Repr, Inhabited

namespace Place

def ofText (s : Text) : Place := ⟨0, 0, 0, s⟩

/-- The place behind one character. Only a line feed starts a new line. -/
def next (p : Place) : Place :=
  match p.rest with
  | [] => p
  | c :: s =>
    if c == '\n' then ⟨p.index + 1, p.line + 1, 0, s⟩
    else if c == byteOrderMark then ⟨p.index + 1, p.line, p.column, s⟩
    else ⟨p.index + 1, p.line, p.column + 1, s⟩

def skip (p : Place) : Nat → Place
  | 0 => p
  | n + 1 => p.next.skip n

/-- The place behind the characters that satisfy `f`, from here on. -/
def skipWhile (p : Place) (f : Char → Bool) : Place := p.skip (p.rest.takeWhile f).length

/-- Whether a document starts or ends here. -/
def atDocumentMark (p : Place) : Bool := p.column == 0 && atMark p.rest

def atEnd (p : Place) : Bool := p.rest.isEmpty

end Place

/-- What the ends of lines between two words stand for: a single one is a space, and the first of
several does not count unless it has a sign of its own. -/
def foldBreaks (first : Char) (more : Text) : Text :=
  if breakText first != '\n' then breakText first :: more
  else if more.isEmpty then [' ']
  else more

end Offside.Yaml
