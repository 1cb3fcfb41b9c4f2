import Offside.Yaml.Fault
import Offside.Yaml.Place

/-!
Scalars between quotes. A line may end within the quotes; between double quotes a backslash starts
an escape, between apostrophes two of them stand for one.
-/
namespace Offside.Yaml.Quoted

/-- The characters that a letter behind a backslash stands for. -/
def simpleEscape? (c : Char) : Option Char :=
  ([('0', '\x00'), ('a', '\x07'), ('b', '\x08'), ('t', '\t'), ('\t', '\t'), ('n', '\n'),
    ('v', '\x0b'), ('f', '\x0c'), ('r', '\r'), ('e', '\x1b'), (' ', ' '), ('"', '"'), ('/', '/'),
    ('\\', '\\'), ('N', '\u0085'), ('_', '\u00a0'), ('L', '\u2028'), ('P', '\u2029')] :
    List (Char × Char)).lookup c

/-- The number of hexadecimal digits that a letter behind a backslash asks for. -/
def escapeDigits? (c : Char) : Option Nat :=
  ([('x', 2), ('u', 4), ('U', 8)] : List (Char × Nat)).lookup c

/-- The character with a number. Half of a pair is shown by the mark of what cannot be shown. -/
def charOfNumber (n : Nat) : Except Fault Char :=
  if 0x10FFFF < n then .error (.noCharacter n)
  else .ok (if n.isValidChar then Char.ofNat n else '\ufffd')

/-- Reads ends of lines, behind the first one. `found` is what has been read, in reverse. A document
must not end between quotes. -/
def readBreaks : Nat → Text → Place → Except Fault (Text × Place)
  | 0, _, _ => malformed
  | steps + 1, found, p =>
    if atMark p.rest then malformed
    else
      let q := p.skipWhile Text.isLineBlank
      match q.rest with
      | c :: _ =>
        if isBreak c then readBreaks steps (breakText c :: found) q.next
        else .ok (found.reverse, q)
      | [] => .ok (found.reverse, q)

/-- Reads blanks and ends of lines between two words. -/
def readGap (p : Place) : Except Fault (Text × Place) :=
  let q := p.skipWhile Text.isLineBlank
  match q.rest with
  | [] => malformed
  | c :: s =>
    if isBreak c then
      (readBreaks (s.length + 1) [] q.next).map fun (more, r) => (foldBreaks c more, r)
    else .ok (p.rest.takeWhile Text.isLineBlank, q)

/-- Reads what follows a backslash. An escaped end of a line stands for nothing. -/
def readEscape (p : Place) : Except Fault (Text × Place) :=
  match p.rest with
  | [] => malformed
  | c :: s =>
    match simpleEscape? c, escapeDigits? c with
    | some d, _ => .ok ([d], p.next)
    | none, some n =>
      let digits := s.take n
      if digits.length < n || !digits.all (fun c => (Text.hexValue? c).isSome) then malformed
      else (charOfNumber (Numeral.ofDigits 16 digits)).map fun d => ([d], p.skip (n + 1))
    | none, none => if isBreak c then readBreaks (s.length + 1) [] p.next else malformed

/-- Reads up to the closing quote. `text` is what has been read, in reverse. -/
def readRest (quote : Char) : Nat → Text → Place → Except Fault (Text × Place)
  | 0, _, _ => malformed
  | steps + 1, text, p =>
    match p.rest with
    | [] => malformed
    | c :: s =>
      if c == quote then
        if quote == '\x27' && s.head? == some quote then
          readRest quote steps (quote :: text) (p.skip 2)
        else .ok (text.reverse, p.next)
      else if c == '\\' && quote == '"' then do
        let (piece, q) ← readEscape p.next
        readRest quote steps (piece.reverse ++ text) q
      else if Text.isLineBlank c || isBreak c then do
        let (piece, q) ← readGap p
        readRest quote steps (piece.reverse ++ text) q
      else readRest quote steps (c :: text) p.next

def read (quote : Char) (p : Place) : Except Fault (Text × Place) :=
  readRest quote (p.rest.length + 1) [] p.next

end Offside.Yaml.Quoted
