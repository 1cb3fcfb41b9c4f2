import Offside.Cli.Run

/-!
The program on a command line. It looks up the files that a request can need, and the rest is
`Cli.Request.run`.
-/
namespace Offside.Main

open Cli

/-- The system's number for an error, which can come with a minus sign. -/
def errorNumber (n : UInt32) : Nat := min n.toNat (0 - n).toNat

def fileError : IO.Error → FileError
  | .inappropriateType _ n reason =>
    if errorNumber n == 20 then .notDirectory
    else if errorNumber n == 21 then .isDirectory
    else .refused (errorNumber n) reason.toList
  | .invalidArgument _ n reason =>
    if errorNumber n == 36 then .nameTooLong else .refused (errorNumber n) reason.toList
  | .permissionDenied _ n reason => .refused (errorNumber n) reason.toList
  | .hardwareFault n reason => .refused (errorNumber n) reason.toList
  | _ => .missing

/-- The bytes of a file, or why there are none. -/
def readBytes (path : String) : IO (Except FileError Bytes) := do
  try
    let bytes ← IO.FS.readBinFile path
    return .ok (bytes.toList.map UInt8.toNat)
  catch e => return .error (fileError e)

def fileOf : Command → Text
  | .format file _ | .check file | .exportTo file _ | .importFrom file => file

/-- The files that a request can need. -/
def pathsOf (here : Text) (r : Request) : List Text :=
  let directory := FilePath.normalize (r.configRoot.getD here)
  fileOf r.command :: ConfigFile.names.map (FilePath.child directory)

/-- Whether a file lets itself be written. Its bytes stay as they are. -/
def checkWrite (path : String) : IO (Except FileError Unit) := do
  try
    let _ ← IO.FS.Handle.mk path .append
    return .ok ()
  catch e => return .error (fileError e)

/-- Does what is asked for, and gives the number to end with. -/
def perform (r : Request) : IO UInt32 := do
  let here := (← IO.currentDir).toString.toList
  let found ← (pathsOf here r).mapM fun path => do
    return (path, ← readBytes (String.ofList (FilePath.normalize path)))
  let reads : Text → Except FileError Bytes := fun path =>
    (found.lookup path).getD (.error .missing)
  let isFile (path : Text) : Except FileError Bool :=
    match reads path with
    | .ok _ => .ok true
    | .error .isDirectory => .ok false
    | .error e => .error e
  let writable : Except FileError Unit ←
    match r.command with
    | .format file .write => checkWrite (String.ofList (FilePath.normalize file))
    | _ => pure (.ok ())
  let input ← if fileOf r.command == ['-'] then (← IO.getStdin).readToEnd else pure ""
  let debug := ((← IO.getEnv "COLLIE_DEBUG").getD "") != ""
  match r.run ⟨.own, isFile, reads, fun _ => writable, input.toList, here⟩ with
  | .error failure =>
    IO.eprintln (String.ofList (failure.message?.getD "A file is not encoded as UTF-8.".toList))
    return 1
  | .ok outcome =>
    IO.eprint (String.ofList (outcome.shownMessages (r.verbose || debug)))
    match outcome.written with
    | none => pure ()
    | some (path, s) => IO.FS.writeFile (String.ofList (FilePath.normalize path)) (String.ofList s)
    IO.print (String.ofList outcome.output)
    return UInt32.ofNat outcome.code

def usage : String :=
  "usage: collie [-h] [-v] [--verbose] [--config-root DIR] \x7bformat,check,export,import\x7d ...\n"

end Offside.Main

def main (args : List String) : IO UInt32 :=
  match Offside.Cli.Request.read (args.map String.toList) with
  | .ok r => Offside.Main.perform r
  | .error .version => do
    IO.print (String.ofList Offside.Cli.versionText)
    return 0
  | .error .help => do
    IO.print Offside.Main.usage
    return 0
  | .error .misuse => do
    IO.eprint Offside.Main.usage
    return 2
