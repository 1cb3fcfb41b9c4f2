import Offside.Text.Literal

/-!
The host that an address can name, between its two slashes and its path. A host in brackets is the
number of a machine: eight groups of sixteen bits, or the form kept for what is to come. Outside
the brackets the only rule is that no character stands for one that has a meaning of its own there.
-/
namespace Offside.Document

/-- What is wrong with the host of an address. -/
inductive AddressError
  /-- There is one bracket without the other. -/
  | unbalancedBrackets
  /-- What starts as the form for what is to come does not go on so. -/
  | unknownVersion
  /-- Four numbers stand in brackets. -/
  | bracketedQuad
  /-- What stands in brackets is no number of a machine. -/
  | noMachine (host : Text)
  /-- A character stands for one that has a meaning of its own. -/
  | disguised (host : Text)
deriving DecidableEq, Repr

def AddressError.message : AddressError → Text
  | unbalancedBrackets => "Invalid IPv6 URL".toList
  | unknownVersion => "IPvFuture address is invalid".toList
  | bracketedQuad => "An IPv4 address cannot be in brackets".toList
  | noMachine host =>
    Text.literal host ++ " does not appear to be an IPv4 or IPv6 address".toList
  | disguised host =>
    "netloc '".toList ++ host ++
      "' contains invalid characters under NFKC normalization".toList

namespace Host

/-- A number of eight bits in decimal digits, without zeros in front. -/
def isOctet (s : Text) : Bool :=
  !s.isEmpty && s.length ≤ 3 && s.all Char.isDigit && (s == ['0'] || s.head? != some '0') &&
    s.foldl (fun n c => 10 * n + (c.toNat - 48)) 0 ≤ 255

/-- Four numbers of eight bits with dots between them. -/
def isQuad (s : Text) : Bool :=
  let octets := Text.splitWhen (· == '.') s
  octets.length == 4 && octets.all isOctet

/-- A number of sixteen bits in hexadecimal digits. -/
def isGroup (s : Text) : Bool :=
  !s.isEmpty && s.length ≤ 4 && s.all fun c => (Text.hexValue? c).isSome

/-- The texts between colons; an empty text has none. -/
def groups (s : Text) : List Text := if s.isEmpty then [] else Text.splitWhen (· == ':') s

/-- How many groups some texts stand for. Four numbers at the end stand for two. -/
def groupCount? : List Text → Option Nat
  | [] => some 0
  | [s] => if isGroup s then some 1 else if isQuad s then some 2 else none
  | s :: ss => if isGroup s then (groupCount? ss).map (· + 1) else none

/-- Eight groups with colons between them. Two colons in a row, which can stand once, leave out at
least one group of zeros. -/
def isEightGroups (s : Text) : Bool :=
  match Text.cutAtPair ':' ':' s with
  | none => groupCount? (groups s) == some 8
  | some (before, after) =>
    (groups before).all isGroup &&
      (groupCount? (groups after)).any fun n => (groups before).length + n ≤ 7

/-- Eight groups, and perhaps the name of a scope behind a percent sign. -/
def isScoped (s : Text) : Bool :=
  isEightGroups (s.takeWhile (· != '%')) &&
    match s.dropWhile (· != '%') with
    | [] => true
    | _ :: scope => !scope.isEmpty && !scope.contains '%'

/-- The form for what is to come, behind the letter that marks it: its version, a dot, and what the
version says. -/
def isVersioned (s : Text) : Bool :=
  let version := s.takeWhile fun c => (Text.hexValue? c).isSome
  match s.drop version.length with
  | '.' :: _ :: _ => !version.isEmpty
  | _ => false

def checkBracketed : Text → Except AddressError Unit
  | 'v' :: s => if isVersioned s then .ok () else .error .unknownVersion
  | s =>
    if isQuad s then .error .bracketedQuad
    else if isScoped s then .ok ()
    else .error (.noMachine s)

/-- Characters that are compatible with a text in which a slash, a question mark, a number sign, an
at sign or a colon occurs. -/
def disguises : List Nat :=
  [0x2047, 0x2048, 0x2049, 0x2100, 0x2101, 0x2105, 0x2106, 0x2A74, 0xFE13, 0xFE16, 0xFE55, 0xFE56,
   0xFE5F, 0xFE6B, 0xFF03, 0xFF0F, 0xFF1A, 0xFF1F, 0xFF20]

def check (s : Text) : Except AddressError Unit := do
  if s.contains '[' != s.contains ']' then throw .unbalancedBrackets
  if s.contains '[' then checkBracketed (((s.dropWhile (· != '[')).drop 1).takeWhile (· != ']'))
  if s.any fun c => disguises.contains c.toNat then throw (.disguised s)

end Host

end Offside.Document
