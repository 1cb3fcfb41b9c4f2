import Offside.Config
import Offside.Text.Utf8
import Offside.Yaml.Build

/-!
The configuration file of a directory, with any loader of data, and with the one of this library.
-/
namespace Offside.ConfigFile

open Data

inductive Error
  /-- Its bytes are no text. -/
  | notText
  /-- Its text is no data. -/
  | notData (fault : Yaml.Fault)
  | config (error : ConfigError)
deriving Repr

/-- What the user reads about a file that breaks the rules of its notation. -/
def malformedMessage (name : Text) : Text := name ++ ": ".toList ++ Yaml.Fault.malformed.message

/-- How deep the data of a configuration goes: its parts have members. -/
def depth : Nat := 2

/-- The names a configuration file can have. The first one that there is counts. -/
def names : List Text := ["collie.yaml", ".collie.yaml"].map String.toList

/-- The text of bytes, with one kind of line end. -/
def textOf? (bytes : List Nat) : Option Text := (Text.Utf8.decode? bytes).map Text.unifyNewlines

/-- The settings in the bytes of a file as a loader reads the data in them. Data that says nothing
sets nothing. -/
def readWith (load : Text → Except Yaml.Fault Value) (bytes : List Nat) : Except Error Settings :=
  match textOf? bytes with
  | none => .error .notText
  | some s => do
    let v ← (load s).mapError .notData
    (Config.ofValue (if v.isVoid then .mapping [] else v)).mapError .config

/-- The settings in the bytes of a file. -/
def read (bytes : List Nat) : Except Error Settings := readWith (Yaml.read depth) bytes

/-- The name of the configuration file among the files of a directory. -/
def find? (exist : Text → Bool) : Option Text := names.find? exist

end Offside.ConfigFile
