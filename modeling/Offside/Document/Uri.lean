import Offside.Document.Host
import Offside.Template.Header
import Offside.Text.Utf8

/-!
The address of a document, and the id that a template without one of its own gets from it: the name
of its file without the endings that only mark it.
-/
namespace Offside.Document

namespace Uri

/-- What precedes the first of some characters, and the rest from it on. -/
def cutAt (stops : Text) (s : Text) : Text × Text :=
  (s.takeWhile (!stops.contains ·), s.dropWhile (!stops.contains ·))

/-- Schemes whose paths can end in parameters; an address without a scheme is like them. -/
def schemesWithParameters : List Text :=
  ["", "ftp", "hdl", "prospero", "http", "imap", "https", "shttp", "rtsp", "rtsps", "rtspu", "sip",
    "sips", "mms", "sftp", "tel"].map String.toList

def isSchemeChar (c : Char) : Bool := c.isAlphanum || c == '+' || c == '-' || c == '.'

/-- Cuts the scheme off an address. It is empty where there is none. -/
def cutScheme (s : Text) : Text × Text :=
  match cutAt [':'] s with
  | (c :: name, ':' :: rest) =>
    if c.isAlpha && (c :: name).all isSchemeChar then ((c :: name).map Char.toLower, rest)
    else ([], s)
  | _ => ([], s)

/-- Cuts the host off what follows the scheme. -/
def cutHost (s : Text) : Except AddressError Text :=
  match s with
  | '/' :: '/' :: s' =>
    let (host, rest) := cutAt ['/', '?', '#'] s'
    (Host.check host).map fun _ => rest
  | _ => .ok s

/-- The last segment of a path without its parameters. -/
def dropParameters (path : Text) : Text :=
  let segment := (path.reverse.takeWhile (· != '/')).reverse
  path.take (path.length - segment.length) ++ segment.takeWhile (· != ';')

def path (s : Text) : Except AddressError Text := do
  let clean := (s.dropWhile (·.toNat ≤ 32)).filter fun c => c != '\t' && c != '\n' && c != '\r'
  let (scheme, rest) := cutScheme clean
  let rest ← cutHost rest
  let place := (cutAt ['?'] (cutAt ['#'] rest).1).1
  return if schemesWithParameters.contains scheme then dropParameters place else place

/-- The bytes of a text with escapes. A percent sign without two digits stands for itself. -/
def unescapeBytes : Text → List Nat
  | '%' :: a :: b :: s =>
    match Text.hexValue? a, Text.hexValue? b with
    | some x, some y => (16 * x + y) :: unescapeBytes s
    | _, _ => 37 :: unescapeBytes (a :: b :: s)
  | c :: s => Text.Utf8.encodeChar c ++ unescapeBytes s
  | [] => []

/-- A text without escapes. Bytes that are no text are marked. -/
def unescape (s : Text) : Text := Text.Utf8.decodeAll (unescapeBytes s)

/-- The last name on a path, whose separators are slashes of either kind. -/
def fileName (path : Text) : Text :=
  let segments := Text.splitWhen (fun c => c == '/' || c == '\\') path
  ((segments.filter fun s => !s.isEmpty && s != ['.']).getLast?).getD []

/-- Whether an address names a scheme before its path. -/
def hasAuthority : Text → Bool
  | ':' :: '/' :: '/' :: _ => true
  | _ :: s => hasAuthority s
  | [] => false

def templateId (s : Text) : Except AddressError Text := do
  let place ← if hasAuthority s then (path s).map unescape else pure s
  let name := fileName place
  return logicalId ((Text.dropEnding? ".collie".toList name).getD name)

end Uri

end Offside.Document
