/-!
Text as a list of characters. Every length, column and offset of this library counts characters,
so positions are positions in the list. The module holds the blanks that text is trimmed at and
the ways to cut a text into pieces.
-/
namespace Offside

/-- A text is the list of its characters. -/
abbrev Text := List Char

namespace Text

/-- The characters that separate words and that trimming takes away: the Unicode white space,
together with the four information separators U+001C to U+001F. A zero-width space is none. -/
def isBlank (c : Char) : Bool :=
  let n := c.toNat
  (9 ≤ n && n ≤ 13) || (28 ≤ n && n ≤ 32) || n == 0x85 || n == 0xA0 || n == 0x1680 ||
    (0x2000 ≤ n && n ≤ 0x200A) || n == 0x2028 || n == 0x2029 || n == 0x202F || n == 0x205F ||
    n == 0x3000

/-- The blanks within a line that a margin is made of: a space and a tab. -/
def isLineBlank (c : Char) : Bool := c == ' ' || c == '\t'

def trimStart (s : Text) : Text := s.dropWhile isBlank

def trimEnd (s : Text) : Text := (s.reverse.dropWhile isBlank).reverse

def trim (s : Text) : Text := trimEnd (trimStart s)

/-- The number of leading blanks. -/
def margin (s : Text) : Nat := (s.takeWhile isBlank).length

/-- The pieces between the characters that satisfy `p`; there is always one more piece than there
are such characters. -/
def splitWhen (p : Char → Bool) : Text → List Text
  | [] => [[]]
  | c :: s =>
    if p c then [] :: splitWhen p s
    else match splitWhen p s with
      | [] => [[c]]
      | w :: ws => (c :: w) :: ws

/-- The maximal runs without a blank. -/
def words (s : Text) : List Text := (splitWhen isBlank s).filter (fun w => !w.isEmpty)

/-- The words with one space between neighbours. -/
def squeeze (s : Text) : Text := [' '].intercalate (words s)

/-- Only line feeds end a line: a carriage return, with the line feed after it if there is one,
becomes a line feed. -/
def unifyNewlines : Text → Text
  | [] => []
  | '\r' :: '\n' :: s => '\n' :: unifyNewlines s
  | '\r' :: s => '\n' :: unifyNewlines s
  | c :: s => c :: unifyNewlines s

/-- The lines of a text whose newlines are unified. -/
def lines (s : Text) : List Text := splitWhen (· == '\n') s

/-- Lines put back together, with a line feed between neighbours. -/
def unlines (ls : List Text) : Text := ['\n'].intercalate ls

/-- Each line followed by a line feed; no line gives no text. -/
def endLines (ls : List Text) : Text := if ls.isEmpty then [] else unlines ls ++ ['\n']

/-- A letter, a digit or an underscore of ASCII. -/
def isAsciiWord (c : Char) : Bool := c.isAlphanum || c == '_'

/-- What precedes and follows the first place where `a` is directly followed by `b`. -/
def cutAtPair (a b : Char) : Text → Option (Text × Text)
  | x :: y :: s =>
    if x == a && y == b then some ([], s)
    else (cutAtPair a b (y :: s)).map fun (before, after) => (x :: before, after)
  | _ => none

/-- The text without `ending`, if it ends so. -/
def dropEnding? (ending s : Text) : Option Text :=
  if ending.isSuffixOf s then some (s.take (s.length - ending.length)) else none

def slice (s : Text) (start stop : Nat) : Text := (s.drop start).take (stop - start)

def ofNat (n : Nat) : Text := Nat.toDigits 10 n

def ofInt : Int → Text
  | .ofNat n => ofNat n
  | .negSucc n => '-' :: ofNat (n + 1)

/-- The lower-case hexadecimal digit of a number below sixteen. -/
def hexDigit (d : Nat) : Char := if d < 10 then Char.ofNat (48 + d) else Char.ofNat (87 + d)

/-- The value of a hexadecimal digit of either case. -/
def hexValue? (c : Char) : Option Nat :=
  if c.isDigit then some (c.toNat - 48)
  else if 'a' ≤ c && c ≤ 'f' then some (c.toNat - 87)
  else if 'A' ≤ c && c ≤ 'F' then some (c.toNat - 55)
  else none

/-- The last `width` hexadecimal digits of a number, the most significant first. -/
def hexDigits : Nat → Nat → Text
  | 0, _ => []
  | width + 1, n => hexDigits width (n / 16) ++ [hexDigit (n % 16)]

end Text

end Offside
