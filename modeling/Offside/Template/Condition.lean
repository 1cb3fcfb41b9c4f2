import Offside.Diagnostic

/-!
The lines that open a branch. A test stands between parentheses; parentheses inside it match, and
those in quotes do not count. What follows on the line is the body of the branch.
-/
namespace Offside

namespace Test

def isQuote (c : Char) : Bool := c == '\x27' || c == '"' || c == '\x60'

/-- Cuts a text behind the parenthesis that closes the `depth + 1` open ones. With `quote = some q`
the text begins inside a literal that ends at `q`; there a backslash hides the next character. -/
def closeAt (depth : Nat) (quote : Option Char) : Text → Option (Text × Text)
  | [] => none
  | c :: s =>
    let keep (r : Option (Text × Text)) := r.map fun (inside, after) => (c :: inside, after)
    match quote with
    | some q =>
      if c == '\\' then
        match s with
        | [] => none
        | e :: s' => keep ((closeAt depth quote s').map fun (inside, after) => (e :: inside, after))
      else if c == q then keep (closeAt depth none s)
      else keep (closeAt depth quote s)
    | none =>
      if isQuote c then keep (closeAt depth (some c) s)
      else if c == '(' then keep (closeAt (depth + 1) none s)
      else if c == ')' then
        match depth with
        | 0 => some ([], s)
        | d + 1 => keep (closeAt d none s)
      else keep (closeAt depth none s)

/-- What stands between the parenthesis that a text starts with and the one that closes it, and
what follows. -/
def enclosed? : Text → Option (Text × Text)
  | '(' :: s => closeAt 0 none s
  | _ => none

end Test

/-- The head of a branch: its test, if it has one, and the body on the same line with its place. -/
structure BranchHead where
  test : Option Text
  inline : Option (Mark × Text)
  span : Span
deriving DecidableEq, Repr, Inhabited

namespace BranchHead

/-- The body on the line of a branch, which starts behind the head at `m`. -/
def inlineBody (m : Mark) (rest : Text) : Option (Mark × Text) :=
  match Text.trim rest with
  | [] => none
  | body => some (m.right (Text.margin rest), body)

/-- Reads a line that starts with `keyword` at `m` and must go on with a test. -/
def readTested (keyword : TestKeyword) (m : Mark) (line : Text) : Except Diagnostic BranchHead :=
  let rest := line.drop keyword.word.length
  match Test.enclosed? (Text.trimStart rest) with
  | none => .error (m.diagnose (.testForm keyword) line.length)
  | some (inside, after) =>
    match Text.trim inside with
    | [] => .error (m.diagnose (.testEmpty keyword) line.length)
    | test => .ok ⟨some test, inlineBody (m.right (line.length - after.length)) after,
        m.span line.length⟩

def readElse (m : Mark) (line : Text) : BranchHead :=
  ⟨none, inlineBody (m.right 5) (line.drop 5), m.span line.length⟩

end BranchHead

end Offside
