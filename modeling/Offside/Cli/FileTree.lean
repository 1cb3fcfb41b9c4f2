import Offside.Text.Literal
import Offside.Text.Utf8

/-!
Paths and files. A file lies under the names on the way to it from the root of the system. A path
that does not start at the root starts at the current directory.
-/
namespace Offside.Cli

/-- The bytes of a file. -/
abbrev Bytes := List Nat

/-- Why a file cannot be read or written. -/
inductive FileError
  | missing
  | notDirectory
  | isDirectory
  /-- A name on the path, or the path, is longer than names and paths can be. -/
  | nameTooLong
  /-- The path has a character in it that no path has. -/
  | unnameable
  /-- The system refuses for another reason, such as a missing permission. -/
  | refused (number : Nat) (reason : Text)
deriving DecidableEq, Repr

namespace FileError

/-- What the user reads about a refusal of the system; `path` is shown as a literal. -/
def systemMessage (number : Nat) (reason path : Text) : Text :=
  "[Errno ".toList ++ Text.ofNat number ++ "] ".toList ++ reason ++ ": ".toList ++ Text.literal path

/-- What the user reads about a file at a path. -/
def message (e : FileError) (path : Text) : Text :=
  match e with
  | missing => systemMessage 2 "No such file or directory".toList path
  | notDirectory => systemMessage 20 "Not a directory".toList path
  | isDirectory => systemMessage 21 "Is a directory".toList path
  | nameTooLong => systemMessage 36 "File name too long".toList path
  | unnameable => "embedded null byte".toList
  | refused number reason => systemMessage number reason path

/-- Whether such an error only means that a path leads to no file. Besides what is missing that is a
file that is not open, and links that go in a circle. -/
def meansNoFile : FileError → Bool
  | missing | notDirectory | isDirectory | unnameable => true
  | nameTooLong => false
  | refused number _ => number == 9 || number == 40

end FileError

namespace FilePath

/-- The names on a path. A single dot names no step. -/
def steps (path : Text) : List Text :=
  (Text.splitWhen (· == '/') path).filter fun s => !s.isEmpty && s != ['.']

/-- What a path that does not start in the current directory starts with. -/
def root (path : Text) : Text :=
  match path with
  | '/' :: '/' :: '/' :: _ => ['/']
  | '/' :: '/' :: _ => ['/', '/']
  | '/' :: _ => ['/']
  | _ => []

/-- Names with slashes between them. -/
def join (steps : List Text) : Text := ['/'].intercalate steps

/-- A path without what makes no difference. -/
def normalize (path : Text) : Text :=
  match root path ++ join (steps path) with
  | [] => ['.']
  | shown => shown

/-- Whether a name is longer than 255 bytes. -/
def isTooLong (name : Text) : Bool := 255 < (Text.Utf8.encode name).length

/-- Checks what a path has to keep to wherever it leads: it has no character of number zero, and
fewer than 4096 bytes. -/
def check (path : Text) : Except FileError Unit :=
  if path.contains '\x00' then .error .unnameable
  else if 4096 ≤ (Text.Utf8.encode (normalize path)).length then .error .nameTooLong
  else .ok ()

/-- The path of a name in a directory. -/
def child (directory name : Text) : Text :=
  root directory ++ join (steps directory ++ [name])

end FilePath

/-- Files, each under the names on the way to it. Nothing is a link. -/
structure FileTree where
  /-- The names on the way to the current directory. -/
  here : List Text
  /-- The names on the way to directories, beside those that a file lies in. -/
  directories : List (List Text)
  files : List (List Text × Bytes)
deriving DecidableEq, Repr

/-- What a path leads to. -/
inductive Found
  | file (place : List Text) (bytes : Bytes)
  | directory
deriving Repr

namespace FileTree

/-- What lies under some names. There is a directory wherever something lies below it. -/
def found? (t : FileTree) (names : List Text) : Option Found :=
  match t.files.lookup names with
  | some bytes => some (.file names bytes)
  | none =>
    if (t.here :: t.directories ++ t.files.map Prod.fst).any names.isPrefixOf then some .directory
    else none

/-- Follows steps from the place with some names. There is nothing above the root but itself. -/
def follow (t : FileTree) (names : List Text) : List Text → Except FileError Found
  | [] => (t.found? names).elim (.error .missing) .ok
  | step :: steps =>
    match t.found? names with
    | none => .error .missing
    | some (.file _ _) => .error .notDirectory
    | some .directory =>
      if step == ['.', '.'] then follow t names.dropLast steps
      else if FilePath.isTooLong step then .error .nameTooLong
      else follow t (names ++ [step]) steps

def find (t : FileTree) (path : Text) : Except FileError Found := do
  FilePath.check path
  t.follow (if (FilePath.root path).isEmpty then t.here else []) (FilePath.steps path)

def isFile (t : FileTree) (path : Text) : Except FileError Bool := do
  match ← t.find path with
  | .file _ _ => return true
  | .directory => return false

def read (t : FileTree) (path : Text) : Except FileError Bytes := do
  match ← t.find path with
  | .file _ bytes => return bytes
  | .directory => throw .isDirectory

/-- The files with other bytes in the one at a path. -/
def write (t : FileTree) (path : Text) (bytes : Bytes) : FileTree :=
  match t.find path with
  | .ok (.file place _) =>
    { t with files := t.files.map fun (p, old) => if p == place then (p, bytes) else (p, old) }
  | _ => t

/-- The path of the current directory. -/
def herePath (t : FileTree) : Text := '/' :: FilePath.join t.here

end FileTree

end Offside.Cli
