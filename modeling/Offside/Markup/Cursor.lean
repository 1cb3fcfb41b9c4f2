import Offside.Markup.Node

/-!
The words that markup and scripts are made of: gaps with comments, names, numbers, and literals.
Each reader takes a cursor and gives the cursor behind what it read, or nothing.
-/
namespace Offside.Markup

/-- A place in a text and what follows it. -/
structure Cursor where
  pos : Nat
  rest : Text
deriving DecidableEq, Repr, Inhabited

namespace Cursor

def ofText (s : Text) : Cursor := ⟨0, s⟩

def skip (c : Cursor) (n : Nat) : Cursor := ⟨c.pos + n, c.rest.drop n⟩

/-- The cursor behind a word that has to follow. -/
def expect? (c : Cursor) (word : Text) : Option Cursor :=
  (word.isPrefixOf? c.rest).map fun rest => ⟨c.pos + word.length, rest⟩

/-- The cursor behind a character that has to follow. -/
def expectChar? (c : Cursor) (x : Char) : Option Cursor :=
  match c.rest with
  | y :: rest => if y == x then some ⟨c.pos + 1, rest⟩ else none
  | [] => none

end Cursor

/-- A character that separates words of a script. -/
def isGap (c : Char) : Bool :=
  let n := c.toNat
  (9 ≤ n && n ≤ 13) || n == 0x20 || n == 0xA0 || n == 0x1680 || (0x2000 ≤ n && n ≤ 0x200B) ||
    n == 0x2028 || n == 0x2029 || n == 0x202F || n == 0x205F || n == 0x2060 || n == 0x3000 ||
    n == 0xFEFF

def isLineEnd (c : Char) : Bool := c == '\n' || c == '\r' || c == '\u2028' || c == '\u2029'

/-- A character that a name can hold, a digit included. -/
def isNamePart (c : Char) : Bool :=
  if c.toNat < 128 then c.isAlphanum || c == '_' || c == '$' || c == '\x7f' else !isGap c

/-- A character that a name with hyphens can hold beside them. -/
def isPlainNamePart (c : Char) : Bool := c.isAlphanum || c == '_' || c == '$'

/-- Whether a text starts with a mark of a comment in a document of markup. Such a comment goes on
to the end of the line, whichever of the two marks starts it. -/
def startsHtmlComment (s : Text) : Bool :=
  ['<', '!', '-', '-'].isPrefixOf s || ['-', '-', '>'].isPrefixOf s

/-- A character that ends the line of a comment in a document. -/
def isHtmlLineEnd (c : Char) : Bool := c == '\n' || c == '\u2028' || c == '\u2029'

/-- The length of the rest of a line with a comment in a document. -/
def htmlLineLength (s : Text) : Nat :=
  (s.takeWhile fun x => !isHtmlLineEnd x && x != '\x00').length

/-- What a gap is made of: blanks, a comment to the end of the line, a comment to its mark. The
comments carry where they started; the start of the last kind is a state of its own because its star
cannot also be the one that ends it. -/
inductive GapState
  | blank
  | lineComment (start : Nat)
  | htmlComment (start : Nat)
  | blockStart (start : Nat)
  | blockComment (start : Nat) (afterStar : Bool)

/-- Reads a gap from `pos` on, with the comments in it. A comment that never ends is none. Behind a
value (`afterValue`) the marks of a comment in a document are signs. -/
def readGap (afterValue : Bool) (pos : Nat) (state : GapState) : Text → Option (List Node × Cursor)
  | [] =>
    match state with
    | .blank => some ([], ⟨pos, []⟩)
    | .lineComment start => some ([.mk .comment start pos []], ⟨pos, []⟩)
    | .htmlComment start => some ([.mk .htmlComment start pos []], ⟨pos, []⟩)
    | _ => none
  | x :: s =>
    match state with
    | .blank =>
      if isGap x then readGap afterValue (pos + 1) .blank s
      else if x == '/' && s.head? == some '/' then
        readGap afterValue (pos + 1) (.lineComment pos) s
      else if x == '/' && s.head? == some '*' then
        readGap afterValue (pos + 1) (.blockStart pos) s
      else if !afterValue && startsHtmlComment (x :: s) then
        readGap afterValue (pos + 1) (.htmlComment pos) s
      else some ([], ⟨pos, x :: s⟩)
    | .lineComment start =>
      if isLineEnd x then do
        let (ns, c) ← readGap afterValue (pos + 1) .blank s
        some (.mk .comment start pos [] :: ns, c)
      else readGap afterValue (pos + 1) (.lineComment start) s
    | .htmlComment start =>
      if isHtmlLineEnd x then do
        let (ns, c) ← readGap afterValue (pos + 1) .blank s
        some (.mk .htmlComment start pos [] :: ns, c)
      else if x == '\x00' then none
      else readGap afterValue (pos + 1) (.htmlComment start) s
    | .blockStart start => readGap afterValue (pos + 1) (.blockComment start false) s
    | .blockComment start afterStar =>
      if afterStar && x == '/' then do
        let (ns, c) ← readGap afterValue (pos + 1) .blank s
        some (.mk .comment start (pos + 1) [] :: ns, c)
      else readGap afterValue (pos + 1) (.blockComment start (x == '*')) s

/-- Reads the gap at a cursor behind a value. -/
def gap (c : Cursor) : Option (List Node × Cursor) := readGap true c.pos .blank c.rest

/-- Reads the gap at a cursor where no value has just ended. -/
def openGap (c : Cursor) : Option (List Node × Cursor) := readGap false c.pos .blank c.rest

/-- The cursor behind the gap; one in front of a comment that never ends does not move. -/
def skipGap (c : Cursor) : Cursor := ((gap c).map Prod.snd).getD c

/-- The cursor behind the gap where no value has just ended. -/
def skipOpenGap (c : Cursor) : Cursor := ((openGap c).map Prod.snd).getD c

def isHexDigit (c : Char) : Bool := (Text.hexValue? c).isSome

def isOctalDigit (c : Char) : Bool := '0' ≤ c && c ≤ '7'

/-- The length of the escape that follows a backslash. -/
def escapeLength? : Text → Option Nat
  | 'x' :: a :: b :: _ => if isHexDigit a && isHexDigit b then some 3 else none
  | 'u' :: '{' :: s =>
    let digits := s.takeWhile isHexDigit
    if !digits.isEmpty && (s.drop digits.length).head? == some '}' then some (digits.length + 3)
    else none
  | 'u' :: a :: b :: c :: d :: _ => if [a, b, c, d].all isHexDigit then some 5 else none
  | 'x' :: _ => none
  | 'u' :: _ => none
  | '\r' :: '\n' :: _ => some 2
  | x :: s =>
    if isOctalDigit x then some (1 + ((s.take 2).takeWhile isOctalDigit).length) else some 1
  | [] => none

/-- The length of the name that a text goes on with, the digits in front included. A character can
be written as the escape of its number; `skipped` characters of one are still to come. -/
def nameLength (skipped : Nat) : Text → Nat
  | [] => 0
  | x :: s =>
    match skipped with
    | k + 1 => 1 + nameLength k s
    | 0 =>
      if isNamePart x then 1 + nameLength 0 s
      else if x == '\\' && s.head? == some 'u' then
        match escapeLength? s with
        | some k => 1 + nameLength k s
        | none => 0
      else 0

def startsName (s : Text) : Bool := 0 < nameLength 0 s && !s.head?.any Char.isDigit

def readName (c : Cursor) : Option (Text × Cursor) :=
  if startsName c.rest then
    let k := nameLength 0 c.rest
    some (c.rest.take k, c.skip k)
  else none

/-- The word at a cursor; it is empty where no name starts. -/
def wordAt (c : Cursor) : Text := ((readName c).map Prod.fst).getD []

/-- Reads a name of markup, which may have hyphens if it is of ASCII. The flag tells whether it
has. -/
def readHyphenName (c : Cursor) : Option (Bool × Cursor) := do
  let (word, c') ← readName c
  match c'.rest with
  | '-' :: _ =>
    if word.all isPlainNamePart then
      let more := c'.rest.takeWhile fun x => isPlainNamePart x || x == '-'
      some (true, c'.skip more.length)
    else some (false, c')
  | _ => some (false, c')

/-- Reads the rest of a string that ends at `quote`; `skipped` characters of an escape are still to
come. -/
def readStringEnd (quote : Char) (pos skipped : Nat) : Text → Option Cursor
  | [] => none
  | x :: s =>
    match skipped with
    | k + 1 => readStringEnd quote (pos + 1) k s
    | 0 =>
      if x == quote then some ⟨pos + 1, s⟩
      else if x == '\\' then
        match escapeLength? s with
        | some k => readStringEnd quote (pos + 1) k s
        | none => none
      else if x == '\n' || x == '\r' then none
      else readStringEnd quote (pos + 1) 0 s

/-- Reads the rest of a regular expression behind its first slash: up to the next slash that stands
neither in brackets nor behind a backslash, and the flags. -/
def readRegexEnd (pos : Nat) (inBrackets escaped : Bool) : Text → Option Cursor
  | [] => none
  | x :: s =>
    if x == '\n' then none
    else if escaped then readRegexEnd (pos + 1) inBrackets false s
    else if x == '\\' then readRegexEnd (pos + 1) inBrackets true s
    else if inBrackets then readRegexEnd (pos + 1) (x != ']') false s
    else if x == '[' then readRegexEnd (pos + 1) true false s
    else if x == '/' then some ((⟨pos + 1, s⟩ : Cursor).skip (s.takeWhile Char.isLower).length)
    else readRegexEnd (pos + 1) false false s

/-- Digits with single underscores in between. -/
def digitsLength (isDigit : Char → Bool) : Text → Nat
  | [] => 0
  | '_' :: x :: s => if isDigit x then 2 + digitsLength isDigit s else 0
  | x :: s => if isDigit x then 1 + digitsLength isDigit s else 0

def exponentLength (s : Text) : Nat :=
  match s with
  | e :: r =>
    if e == 'e' || e == 'E' then
      let (sign, digits) := match r with
        | '+' :: r' => (1, r')
        | '-' :: r' => (1, r')
        | _ => (0, r)
      match digitsLength Char.isDigit digits with
      | 0 => 0
      | k => 1 + sign + k
    else 0
  | [] => 0

def numberLength? (s : Text) : Option Nat :=
  let radix (isDigit : Char → Bool) (r : Text) : Option Nat :=
    match digitsLength isDigit r with
    | 0 => none
    | k => some (2 + k + if (r.drop k).head? == some 'n' then 1 else 0)
  match s with
  | '0' :: x :: r =>
    if x == 'x' || x == 'X' then radix isHexDigit r
    else if x == 'o' || x == 'O' then radix isOctalDigit r
    else if x == 'b' || x == 'B' then radix (fun c => c == '0' || c == '1') r
    else decimal s
  | _ => decimal s
where
  /-- A number in decimal digits, perhaps with a point and an exponent. -/
  decimal (s : Text) : Option Nat :=
    let whole := digitsLength Char.isDigit s
    let rest := s.drop whole
    match rest with
    | '.' :: r =>
      let places := digitsLength Char.isDigit r
      if whole == 0 && places == 0 then none
      else some (whole + 1 + places + exponentLength (r.drop places))
    | 'n' :: _ => if whole == 0 then none else some (whole + 1)
    | _ => if whole == 0 then none else some (whole + exponentLength rest)

/-- Characters that stand for something else in the text of markup. A character of code zero ends
it. -/
def endsMarkupText (c : Char) : Bool :=
  c == '<' || c == '>' || c == '{' || c == '}' || c == '&' || c == '\x00'

/-- Whether a run of text shows anything: something that is not blank, or a blank that does not
follow a line feed. -/
def showsText (afterNewline : Bool) : Text → Bool
  | [] => false
  | x :: s =>
    if x == '\n' then showsText true s
    else if afterNewline && Text.isBlank x then showsText true s
    else true

/-- Reads a character reference: a name of up to 30 letters, or a number of up to five decimal or
six hexadecimal digits. -/
def readReference (c : Cursor) : Option Cursor :=
  let finish (k : Nat) (digits : Nat) (most : Nat) : Option Cursor :=
    if 1 ≤ digits && digits ≤ most then (c.skip (k + digits)).expectChar? ';' else none
  match c.rest with
  | '&' :: '#' :: x :: s =>
    if x == 'x' || x == 'X' then finish 3 (s.takeWhile isHexDigit).length 6
    else finish 2 ((x :: s).takeWhile Char.isDigit).length 5
  | '&' :: s => finish 1 (s.takeWhile Char.isAlpha).length 30
  | _ => none

/-- The length of the comment that a piece of an attribute string starts with, and of the blanks
before it. -/
def htmlCommentLength? (s : Text) : Option Nat :=
  let body := s.dropWhile Text.isBlank
  if startsHtmlComment body then some (s.length - body.length + htmlLineLength body) else none

/-- Reads the rest of an attribute string that ends at `quote`. It has no escapes; an ampersand
before a letter or a number sign must start a character reference, and one before anything else
takes that along. Where a piece of text can start (`fresh`), so can a comment, and a quote in it
does not count. -/
def readAttributeStringEnd (quote : Char) (pos skipped : Nat) (fresh : Bool) : Text → Option Cursor
  | [] => none
  | x :: s =>
    match skipped with
    | k + 1 => readAttributeStringEnd quote (pos + 1) k fresh s
    | 0 =>
      match (if fresh then htmlCommentLength? (x :: s) else none) with
      | some k => readAttributeStringEnd quote (pos + 1) (k - 1) true s
      | none =>
        if x == quote then some ⟨pos + 1, s⟩
        else if x == '&' then
          match readReference ⟨pos, x :: s⟩, s with
          | some c, _ => readAttributeStringEnd quote (pos + 1) (c.pos - pos - 1) true s
          | none, y :: _ =>
            if y == '#' || y.isAlpha then none
            else readAttributeStringEnd quote (pos + 1) 1 false s
          | none, [] => none
        else readAttributeStringEnd quote (pos + 1) 0 false s

end Offside.Markup
