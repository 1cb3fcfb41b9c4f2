import Offside.Text.Basic

/-!
Reading words as options and operands. A long option can be cut short as long as it stays clear
which one is meant, and a value can follow an option behind an equals sign; short options without
values can be written in one word.
-/
namespace Offside.Cli

/-- Why the program ends before it does anything. -/
inductive Ending
  | version
  | help
  | misuse
deriving DecidableEq, Repr

/-- What an option does. -/
inductive Effect
  | turnOn
  /-- It takes a value, which has to be one of some if there are any. -/
  | takeValue (choices : List Text)
  | finish (ending : Ending)
deriving DecidableEq, Repr

/-- An option: its names, of which the last one stands for it, and what it does. -/
structure CommandOption where
  names : List Text
  effect : Effect
deriving DecidableEq, Repr

def CommandOption.name (o : CommandOption) : Text := o.names.getLast?.getD []

/-- What a word of a command line is. -/
inductive Word
  | operand (text : Text)
  /-- The two hyphens after which all words are operands. -/
  | separator
  | unknown (text : Text)
  /-- An option under one of its names, with the value that the word itself gives to it. -/
  | option (option : CommandOption) (written : Text) (value : Option Text)
deriving Repr

/-- What precedes and follows the first equals sign. -/
def cutValue (s : Text) : Text × Option Text :=
  match s.dropWhile (· != '=') with
  | '=' :: value => (s.takeWhile (· != '='), some value)
  | _ => (s, none)

def named? (options : List CommandOption) (name : Text) : Option CommandOption :=
  options.find? (·.names.contains name)

/-- The options, under names of theirs, that a cut short word can mean. -/
def candidates (options : List CommandOption) (s : Text) : List Word :=
  let all : List (CommandOption × Text) := options.flatMap fun o => o.names.map fun n => (o, n)
  match s with
  | '-' :: '-' :: _ =>
    let (start, value) := cutValue s
    (all.filter fun (_, n) => start.isPrefixOf n).map fun (o, n) => .option o n value
  | _ =>
    let short := s.take 2
    all.filterMap fun (o, n) =>
      if n == short then some (.option o n (some (s.drop 2)))
      else if s.isPrefixOf n then some (.option o n none)
      else none

/-- A negative number, which is an operand. -/
def isNegativeNumber : Text → Bool
  | '-' :: s =>
    let whole := s.takeWhile Char.isDigit
    match s.drop whole.length with
    | [] => !whole.isEmpty
    | '.' :: places => !places.isEmpty && places.all Char.isDigit
    | _ => false
  | _ => false

/-- What a word in front of the separator is. -/
def Word.of (options : List CommandOption) (s : Text) : Except Ending Word :=
  match s with
  | '-' :: _ :: _ =>
    match named? options s with
    | some o => .ok (.option o s none)
    | none =>
      let (start, value) := cutValue s
      match (if value.isSome then named? options start else none) with
      | some o => .ok (.option o start value)
      | none =>
        match candidates options s with
        | [word] => .ok word
        | _ :: _ :: _ => .error .misuse
        | [] => .ok (if isNegativeNumber s || s.contains ' ' then .operand s else .unknown s)
  | _ => .ok (.operand s)

/-- What the words of a command line are. -/
def Word.ofList (options : List CommandOption) : List Text → Except Ending (List Word)
  | [] => .ok []
  | s :: ss =>
    if s == ['-', '-'] then .ok (.separator :: ss.map .operand)
    else do
      let word ← Word.of options s
      let words ← Word.ofList options ss
      return word :: words

/-- What options have been given, and with which values. -/
abbrev Given := List (Text × Text)

def Given.has (g : Given) (name : String) : Bool := g.any (·.1 == name.toList)

def Given.value? (g : Given) (name : String) : Option Text := g.lookup name.toList

def give (g : Given) (o : CommandOption) (value : Text) : Except Ending Given :=
  match o.effect with
  | .takeValue choices =>
    if choices.isEmpty || choices.contains value then .ok ((o.name, value) :: g) else .error .misuse
  | _ => .error .misuse

def turnOn (g : Given) (o : CommandOption) : Except Ending Given :=
  match o.effect with
  | .turnOn => .ok ((o.name, []) :: g)
  | .finish ending => .error ending
  | .takeValue _ => .error .misuse

/-- Turns a short option on, and those that the letters behind it name. All of them have to be
known before any is turned on. -/
def turnOnAll (options : List CommandOption) (g : Given) (o : CommandOption) (letters : Text) :
    Except Ending Given :=
  match letters.mapM fun c => named? options ['-', c] with
  | none => .error .misuse
  | some more => (o :: more).foldlM turnOn g

/-- Reads an option with the value that its word gives to it. -/
def readWithValue (options : List CommandOption) (g : Given) (o : CommandOption)
    (written value : Text) : Except Ending Given :=
  match o.effect with
  | .takeValue _ => give g o value
  | _ =>
    match written, value with
    | '-' :: '-' :: _, _ => .error .misuse
    | _, [] => .error .misuse
    | _, letters => turnOnAll options g o letters

end Offside.Cli
