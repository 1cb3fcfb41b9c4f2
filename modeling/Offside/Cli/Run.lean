import Offside.Cli.FileTree
import Offside.Cli.Request
import Offside.ConfigFile
import Offside.Export
import Offside.Import
import Offside.Report
import Offside.Template.Format

/-!
What the program does. A run only looks at files; the one change that it can ask for is part of its
outcome, so that what a run does to the files can be told from its outcome alone. The reader of
markup and the loader of data are parameters of a run.
-/
namespace Offside.Cli

/-- Something said to the user beside the output. -/
inductive Message
  | debug (text : Text)
  | warning (text : Text)
  /-- A text that is shown as it is, with its end. -/
  | plain (text : Text)
deriving DecidableEq, Repr

/-- What is shown of a message. Only a verbose run shows how it comes about. -/
def Message.shown (verbose : Bool) : Message → Text
  | debug s => if verbose then "[DEBUG] ".toList ++ s ++ ['\n'] else []
  | warning s => "[WARNING] ".toList ++ s ++ ['\n']
  | plain s => s

structure Outcome where
  /-- The number by which other programs tell how a run ended: 0 if all is well, 1 if a template has
  to be mended, 2 if nothing could be done. -/
  code : Nat
  output : Text
  messages : List Message
  /-- The new text of a file. -/
  written : Option (Text × Text)
deriving DecidableEq, Repr

/-- What a run cannot cope with. -/
inductive Failure
  /-- A file whose bytes are no text. -/
  | notText
  /-- A path that no file can have. -/
  | unnameable
  /-- A configuration file in which a value is not what it announces. -/
  | badData (fault : Yaml.Fault)
  /-- A configuration with a fault that cannot be reported. -/
  | untellable
  /-- A diagnostic of a severity that no report knows. -/
  | unknownSeverity (name : Text)
  /-- Markup whose neutral form cannot be written as a template. -/
  | unwritable (error : Ir.TemplateError)
  /-- Settings under which no line can be indented. -/
  | indent (error : IndentError)
deriving DecidableEq, Repr

/-- What is known about a failure. -/
def Failure.message? : Failure → Option Text
  | notText => none
  | unnameable => some (FileError.unnameable.message [])
  | badData f => some f.message
  | untellable => some Numeral.unwritableMessage
  | unknownSeverity name => some (Report.unknownSeverity name)
  | unwritable e => some e.message
  | indent e => some e.message

/-- What the program has from others. -/
structure Libraries where
  /-- The tree of a program of markup, unless its syntax is wrong. -/
  markup : Text → Option Markup.Node
  /-- The data in a text. A text that breaks the rules of the notation is malformed; any other fault
  is one that the loader does not announce. -/
  data : Text → Except Yaml.Fault Data.Value

/-- The reader and the loader of this library. -/
def Libraries.own : Libraries := ⟨Markup.Program.read?, Yaml.read ConfigFile.depth⟩

/-- What a run knows of the world. -/
structure World where
  libraries : Libraries
  /-- Whether a path leads to a file. -/
  isFile : Text → Except FileError Bool
  /-- The bytes of the file at a path. -/
  read : Text → Except FileError Bytes
  /-- Whether the file at a path lets itself be written. What is then written is not lost. -/
  canWrite : Text → Except FileError Unit
  /-- What is typed in. -/
  input : Text
  /-- The path of the current directory. -/
  here : Text

/-- A run that may stop early, with the messages so far. -/
abbrev Run (α : Type) := List Message → Except (Outcome ⊕ Failure) (α × List Message)

namespace Run

/-- Goes on with a value. -/
def pure {α : Type} (value : α) : Run α := fun log => .ok (value, log)

/-- Goes on with what comes next. -/
def bind {α β : Type} (first : Run α) (next : α → Run β) : Run β := fun log =>
  match first log with
  | .ok (value, log) => next value log
  | .error e => .error e

instance : Monad Run where
  pure := Run.pure
  bind := Run.bind

def say (m : Message) : Run Unit := fun log => .ok ((), log ++ [m])

def sayAll (ms : List Message) : Run Unit := fun log => .ok ((), log ++ ms)

/-- Stops because something is wrong that the user can mend. -/
def stop {α : Type} (message : Text) : Run α := fun log =>
  .error (.inl ⟨2, [], log ++ [.plain (message ++ ['\n'])], none⟩)

/-- Stops because of something that a run cannot cope with. -/
def fail {α : Type} (f : Failure) : Run α := fun _ => .error (.inr f)

/-- Goes on with a result, if there is one. -/
def orFail {ε α : Type} (f : ε → Failure) : Except ε α → Run α
  | .ok value => Run.pure value
  | .error e => fail (f e)

def finish (code : Nat) (output : Text) (written : Option (Text × Text)) : Run Outcome := fun log =>
  .ok (⟨code, output, log, written⟩, log)

end Run

open Run in
/-- Goes on with what the system gives for a path. Every refusal is told but that of a path which no
file can have. -/
def fromSystem {α : Type} (path : Text) : Except FileError α → Run α
  | .ok a => Run.pure a
  | .error .unnameable => fail .unnameable
  | .error e => stop (e.message path)

open Run in
/-- The text of the file at a path, with one kind of line end. -/
def readText (w : World) (path : Text) : Run Text := do
  match ConfigFile.textOf? (← fromSystem (FilePath.normalize path) (w.read path)) with
  | none => fail .notText
  | some s => return s

open Run in
/-- The first of some names that is one of a file in a directory. What is no file is passed over. -/
def firstFile (w : World) (directory : Text) : List Text → Run (Option Text)
  | [] => Run.pure none
  | name :: names =>
    let path := FilePath.child directory name
    match w.isFile path with
    | .ok true => Run.pure (some name)
    | .ok false => firstFile w directory names
    | .error e => if e.meansNoFile then firstFile w directory names else stop (e.message path)

open Run in
def readSettings (w : World) (root : Option Text) : Run Settings := do
  let directory := FilePath.normalize (root.getD w.here)
  match ← firstFile w directory ConfigFile.names with
  | none =>
    say (.debug ("No config file in ".toList ++ directory ++ ", using defaults".toList))
    return {}
  | some name =>
    let path := FilePath.child directory name
    say (.debug ("Loading config from ".toList ++ path))
    match ConfigFile.readWith w.libraries.data (← fromSystem path (w.read path)) with
    | .ok settings => return settings
    | .error .notText => fail .notText
    | .error (.notData .malformed) => stop (ConfigFile.malformedMessage name)
    | .error (.notData fault) => fail (.badData fault)
    | .error (.config e) =>
      match e.message? with
      | none => fail .untellable
      | some message =>
        say (.debug ("RAISE at ".toList ++ message))
        stop message

/-- A text without the line ends behind it. -/
def dropLineEnds (s : Text) : Text := (s.reverse.dropWhile (· == '\n')).reverse

open Run in
def runFormat (w : World) (o : Layout) (file : Text) (mode : FormatMode) : Run Outcome := do
  let path := FilePath.normalize file
  let s ← readText w file
  let f ← orFail .indent (format? o s)
  if f.respaced then
    say (.debug ("Template has ".toList ++ Text.ofNat (Diagnostic.errors f.diagnostics).length ++
      " error diagnostic(s), using fallback formatting".toList))
    say (.warning (path ++ " has parse errors; only whitespace was normalized".toList))
  match mode with
  | .check =>
    if f.changed s then
      say (.plain (path ++ ": not formatted\n".toList))
      finish 1 [] none
    else finish 0 [] none
  | .write =>
    if f.changed s then
      fromSystem path (w.canWrite file)
      say (.debug ("Rewrote ".toList ++ path))
      finish 0 [] (some (file, f.text))
    else finish 0 [] none
  | .print => finish 0 f.text none

open Run in
def runCheck (w : World) (file : Text) : Run Outcome := do
  let s ← readText w file
  let r := Template.read s
  match Report.make file r.template.id r.diagnostics with
  | .ok report => finish (if report.errors == 0 then 0 else 1) report.write none
  | .error name => fail (.unknownSeverity name)

open Run in
def runExport (w : World) (o : ExportOptions) (file : Text) (target : Option Target) :
    Run Outcome := do
  let s ← readText w file
  let e ← orFail .indent (exportTemplate? s target o)
  match e with
  | .success target _ nodes _ =>
    say (.debug ("Exported ".toList ++ Text.ofNat nodes.length ++ " top-level node(s) to ".toList ++
      target.label.toList))
  | .failure target errors =>
    say (.debug ("Export to ".toList ++ target.label.toList ++ " aborted: ".toList ++
      Text.ofNat errors.length ++ " error diagnostic(s)".toList))
  finish (if e.isSuccess then 0 else 1) (dropLineEnds e.output ++ ['\n']) none

open Run in
/-- Imports a selection of markup; a hyphen stands for what is typed in. -/
def runImport (w : World) (o : Layout) (file : Text) : Run Outcome := do
  let s ← if file == ['-'] then Run.pure (Text.unifyNewlines w.input) else readText w file
  match importMarkupWith w.libraries.markup o s with
  | .error (.selection e) => stop e.message
  | .error (.template e) => fail (.unwritable e)
  | .ok imported =>
    sayAll (imported.warnings.map .warning)
    finish 0 imported.text none

def runRequest (w : World) (r : Request) : Run Outcome := do
  let settings ← readSettings w r.configRoot
  match r.command with
  | .format file mode => runFormat w settings.format file mode
  | .check file => runCheck w file
  | .exportTo file target => runExport w settings.exporting file target
  | .importFrom file => runImport w settings.format file

/-- How a run ends that does what is asked for. -/
def Request.run (w : World) (r : Request) : Except Failure Outcome :=
  match runRequest w r [] with
  | .ok (outcome, _) => .ok outcome
  | .error (.inl outcome) => .ok outcome
  | .error (.inr failure) => .error failure

/-- What is shown beside the output. -/
def Outcome.shownMessages (o : Outcome) (verbose : Bool) : Text :=
  o.messages.flatMap (Message.shown verbose)

def versionText : Text := "collie 0.3.0\n".toList

/-- What a run knows of some files. All of them can be read and written. -/
def FileTree.world (t : FileTree) (l : Libraries) (input : Text) : World where
  libraries := l
  isFile := t.isFile
  read := t.read
  canWrite _ := .ok ()
  input := input
  here := t.herePath

/-- A run among some files: how it ends, and the files after it. -/
def runIn (l : Libraries) (t : FileTree) (input : Text) (r : Request) :
    Except Failure Outcome × FileTree :=
  match r.run (t.world l input) with
  | .error failure => (.error failure, t)
  | .ok outcome =>
    match outcome.written with
    | none => (.ok outcome, t)
    | some (path, s) => (.ok outcome, t.write path (Text.Utf8.encode s))

end Offside.Cli
