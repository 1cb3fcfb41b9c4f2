import Offside.Cli.Option
import Offside.Options

/-!
What the user asks for on the command line.
-/
namespace Offside.Cli

/-- What to do with a formatted template. -/
inductive FormatMode
  | print
  | check
  | write
deriving DecidableEq, Repr

/-- What to do, and with which file. -/
inductive Command
  | format (file : Text) (mode : FormatMode)
  | check (file : Text)
  | exportTo (file : Text) (target : Option Target)
  | importFrom (file : Text)
deriving DecidableEq, Repr

/-- What the user asks for. -/
structure Request where
  verbose : Bool
  /-- The directory of the configuration, unless it is the current one. -/
  configRoot : Option Text
  command : Command
deriving DecidableEq, Repr

/-- Asks how the program is used. -/
def helpOption : CommandOption := ⟨["-h", "--help"].map String.toList, .finish .help⟩

def generalOptions : List CommandOption :=
  [helpOption, ⟨["-v", "--version"].map String.toList, .finish .version⟩,
    ⟨["--verbose".toList], .turnOn⟩, ⟨["--config-root".toList], .takeValue []⟩]

inductive CommandName
  | format
  | check
  | exportTo
  | importFrom
deriving DecidableEq, Repr

namespace CommandName

def ofText? (s : Text) : Option CommandName :=
  ([("format", format), ("check", check), ("export", exportTo), ("import", importFrom)] :
    List (String × CommandName)).findSome? fun (name, command) =>
      if name.toList == s then some command else none

def options : CommandName → List CommandOption
  | format => [helpOption, ⟨["--write".toList], .turnOn⟩, ⟨["--check".toList], .turnOn⟩]
  | check => [helpOption]
  | exportTo => [helpOption, ⟨["--target".toList], .takeValue (["jsx", "tsx"].map String.toList)⟩]
  | importFrom => [helpOption]

end CommandName

/-- Options of which only one can be given. -/
def exclusive : List Text := ["--write", "--check"].map String.toList

/-- Whether an option excludes one that has been given. -/
def conflicts (g : Given) (o : CommandOption) : Bool :=
  exclusive.contains o.name && g.any fun (name, _) => exclusive.contains name && name != o.name

/-- What the next word can be, apart from what any word can be. -/
inductive Expected
  | nothing
  /-- The value of an option, and nothing else. -/
  | valueOf (option : CommandOption)
  /-- A separator that belongs to the file before it. -/
  | separator
deriving DecidableEq, Repr

/-- What has been read behind a command. -/
structure Arguments where
  given : Given
  file : Option Text
  /-- Whether there are words that mean nothing. -/
  surplus : Bool
deriving Repr

/-- Reads the words behind a command. The first operand is the file; separators beside it do not
count. -/
def readArguments (options : List CommandOption) (a : Arguments) (expected : Expected) :
    List Word → Except Ending Arguments
  | [] =>
    match expected with
    | .valueOf _ => .error .misuse
    | _ => .ok a
  | w :: ws =>
    match expected, w with
    | .valueOf o, .operand value => do
      let given ← give a.given o value
      readArguments options { a with given } .nothing ws
    | .valueOf _, _ => .error .misuse
    | _, .operand s =>
      if a.file.isNone then readArguments options { a with file := some s } .separator ws
      else readArguments options { a with surplus := true } .nothing ws
    | _, .separator =>
      if a.file.isNone || expected == .separator then readArguments options a .nothing ws
      else readArguments options { a with surplus := true } .nothing ws
    | _, .unknown _ => readArguments options { a with surplus := true } .nothing ws
    | _, .option o written value => do
      if conflicts a.given o then throw .misuse
      match value, o.effect with
      | some value, _ =>
        let given ← readWithValue options a.given o written value
        readArguments options { a with given } .nothing ws
      | none, .takeValue _ => readArguments options a (.valueOf o) ws
      | none, _ =>
        let given ← turnOn a.given o
        readArguments options { a with given } .nothing ws

/-- The command that the words behind its name ask for. -/
def CommandName.read (c : CommandName) (words : List Text) : Except Ending Command := do
  let words ← Word.ofList c.options words
  let a ← readArguments c.options ⟨[], none, false⟩ .nothing words
  match a.file with
  | none => .error .misuse
  | some file =>
    if a.surplus then .error .misuse
    else
      match c with
      | .format =>
        return .format file
          (if a.given.has "--check" then .check else if a.given.has "--write" then .write
            else .print)
      | .check => return .check file
      | .exportTo =>
        return .exportTo file ((a.given.value? "--target").map fun t =>
          if t == "jsx".toList then .jsx else .tsx)
      | .importFrom => return .importFrom file

/-- Reads the options before a command, and the command. Each word comes with the text it was
written as. -/
def readRequest (g : Given) (surplus : Bool) (expected : Expected) :
    List (Word × Text) → Except Ending Request
  | [] => .error .misuse
  | (w, _) :: ws =>
    match expected, w with
    | .valueOf o, .operand value => do
      let g ← give g o value
      readRequest g surplus .nothing ws
    | .valueOf _, _ => .error .misuse
    | _, .unknown _ => readRequest g true .nothing ws
    | _, .separator => .error .misuse
    | _, .option o written value => do
      match value, o.effect with
      | some value, _ =>
        let g ← readWithValue generalOptions g o written value
        readRequest g surplus .nothing ws
      | none, .takeValue _ => readRequest g surplus (.valueOf o) ws
      | none, _ =>
        let g ← turnOn g o
        readRequest g surplus .nothing ws
    | _, .operand name =>
      match CommandName.ofText? name with
      | none => .error .misuse
      | some c => do
        let command ← c.read (ws.map Prod.snd)
        if surplus then throw .misuse
        return ⟨g.has "--verbose", (g.value? "--config-root").filter (!·.isEmpty), command⟩

/-- What a command line asks for. -/
def Request.read (words : List Text) : Except Ending Request := do
  let ws ← Word.ofList generalOptions words
  readRequest [] false .nothing (ws.zip words)

end Offside.Cli
