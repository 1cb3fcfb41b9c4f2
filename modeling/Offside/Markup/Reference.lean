import Offside.Markup.Reference.Names

/-!
Character references: an ampersand and a name or a number that stand for a character. A name that
is known only in part stands for its longest known beginning; one that is not known stays.
-/
namespace Offside.Markup.Reference

def decimal (digits : Text) : Nat := digits.foldl (fun n c => 10 * n + (c.toNat - 48)) 0

def hexadecimal (digits : Text) : Nat :=
  digits.foldl (fun n c => 16 * n + (Text.hexValue? c).getD 0) 0

/-- What the numbers from 128 to 159 stand for: the characters that a common code page has there,
where it has any. -/
def codePage : List Nat :=
  [0x20AC, 0x81, 0x201A, 0x0192, 0x201E, 0x2026, 0x2020, 0x2021, 0x02C6, 0x2030, 0x0160, 0x2039,
    0x0152, 0x8D, 0x017D, 0x8F, 0x90, 0x2018, 0x2019, 0x201C, 0x201D, 0x2022, 0x2013, 0x2014,
    0x02DC, 0x2122, 0x0161, 0x203A, 0x0153, 0x9D, 0x017E, 0x0178]

/-- A number that no character of a text may have. -/
def isDropped (n : Nat) : Bool :=
  (1 ≤ n && n ≤ 8) || n == 11 || (14 ≤ n && n ≤ 31) || n == 127 || (0xFDD0 ≤ n && n ≤ 0xFDEF) ||
    (0xFFFE ≤ n && 0xFFFE ≤ n % 0x10000)

/-- What a numeric reference stands for. -/
def ofCode (n : Nat) : Text :=
  if n == 0 || (0xD800 ≤ n && n ≤ 0xDFFF) || 0x10FFFF < n then ['\ufffd']
  else if 128 ≤ n && n ≤ 159 then [Char.ofNat (codePage.getD (n - 128) n)]
  else if isDropped n then []
  else [Char.ofNat n]

/-- The code points behind a name in a list of names and code points. -/
def codesOf (name : Text) : List Text → List Nat
  | [] => []
  | w :: ws =>
    if w == name then (ws.takeWhile fun d => d.head?.any Char.isDigit).map decimal
    else codesOf name ws

/-- What a name stands for if a semicolon follows it. -/
def ofName? (name : Text) : Option Text :=
  match name with
  | [] => none
  | c :: _ =>
    match codesOf name (Text.words (names c).toList) with
    | [] => none
    | codes => some (codes.map Char.ofNat)

/-- What the beginning of a name stands for if no semicolon is needed; `n` is the greatest length
tried. -/
def ofBeginning? (name : Text) : Nat → Option (Text × Text)
  | 0 => none
  | n + 1 =>
    let beginning := name.take (n + 1)
    if openNames.contains beginning then
      (ofName? beginning).map fun shown => (shown, name.drop (n + 1))
    else ofBeginning? name n

/-- What a named reference stands for. -/
def ofName (name : Text) (closed : Bool) : Text :=
  let ending : Text := if closed then [';'] else []
  match (if closed then ofName? name else none) with
  | some shown => shown
  | none =>
    match ofBeginning? name name.length with
    | some (shown, rest) => shown ++ rest ++ ending
    | none => '&' :: name ++ ending

/-- A character that a name in a reference cannot hold. -/
def endsName (c : Char) : Bool :=
  c == '\t' || c == '\n' || c == '\x0c' || c == ' ' || c == '<' || c == '&' || c == '#' || c == ';'

/-- What the reference behind an ampersand stands for, and how long it is. -/
def read? (s : Text) : Option (Text × Nat) :=
  match s with
  | '#' :: x :: s' =>
    if x == 'x' || x == 'X' then
      let digits := s'.takeWhile fun c => (Text.hexValue? c).isSome
      if digits.isEmpty then none
      else some (ofCode (hexadecimal digits), 2 + digits.length + semicolon (s'.drop digits.length))
    else
      let digits := (x :: s').takeWhile Char.isDigit
      if digits.isEmpty then none
      else
        some (ofCode (decimal digits),
          1 + digits.length + semicolon ((x :: s').drop digits.length))
  | _ =>
    let name := (s.take 32).takeWhile (!endsName ·)
    if name.isEmpty then none
    else
      let k := semicolon (s.drop name.length)
      some (ofName name (k == 1), name.length + k)
where
  /-- The length of the semicolon that may follow. -/
  semicolon (s : Text) : Nat := if s.head? == some ';' then 1 else 0

/-- The text with all references resolved; its first `skipped` characters belong to a reference
that has been. -/
def resolveFrom (skipped : Nat) : Text → Text
  | [] => []
  | c :: s =>
    match skipped with
    | k + 1 => resolveFrom k s
    | 0 =>
      if c == '&' then
        match read? s with
        | some (shown, k) => shown ++ resolveFrom k s
        | none => c :: resolveFrom 0 s
      else c :: resolveFrom 0 s

def resolve (s : Text) : Text := resolveFrom 0 s

end Offside.Markup.Reference
