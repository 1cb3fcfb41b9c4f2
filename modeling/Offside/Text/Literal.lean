import Offside.Text.Basic
import Offside.Text.Printable

/-!
Text between quotes. Between double quotes, as JSON and scripts read it, a quote, a backslash and
the controls are written as escapes and everything else as it is, so a quoted text stays on one
line. A literal shows what is in a text or in bytes: characters that cannot be seen are escapes too,
and apostrophes stand around it, or double quotes if only those need no escape.
-/
namespace Offside.Text

def quoteChar (c : Char) : Text :=
  if c == '"' then ['\\', '"']
  else if c == '\\' then ['\\', '\\']
  else if c == '\n' then ['\\', 'n']
  else if c == '\r' then ['\\', 'r']
  else if c == '\t' then ['\\', 't']
  else if c == '\x0c' then ['\\', 'f']
  else if c == '\x08' then ['\\', 'b']
  else if c.toNat < 32 then ['\\', 'u'] ++ hexDigits 4 c.toNat
  else [c]

def quote (s : Text) : Text := '"' :: s.flatMap quoteChar ++ ['"']

/-- How a character is written in a literal between quotes of a kind. -/
def literalChar (quote c : Char) : Text :=
  if c == quote || c == '\\' then ['\\', c]
  else if c == '\t' then ['\\', 't']
  else if c == '\n' then ['\\', 'n']
  else if c == '\r' then ['\\', 'r']
  else if isPrintable c then [c]
  else if c.toNat < 0x100 then ['\\', 'x'] ++ hexDigits 2 c.toNat
  else if c.toNat < 0x10000 then ['\\', 'u'] ++ hexDigits 4 c.toNat
  else ['\\', 'U'] ++ hexDigits 8 c.toNat

/-- The quotes that stand around a text. -/
def literalQuote (s : Text) : Char := if s.contains '\x27' && !s.contains '"' then '"' else '\x27'

def literal (s : Text) : Text :=
  let quote := literalQuote s
  quote :: s.flatMap (literalChar quote) ++ [quote]

/-- How a byte is written in a literal: as the character of ASCII that it is, or as an escape. -/
def literalByte (quote : Char) (b : Nat) : Text :=
  if b < 0x80 then literalChar quote (Char.ofNat b) else ['\\', 'x'] ++ hexDigits 2 b

def byteLiteral (bytes : List Nat) : Text :=
  let quote := literalQuote (bytes.map Char.ofNat)
  'b' :: quote :: bytes.flatMap (literalByte quote) ++ [quote]

end Offside.Text
