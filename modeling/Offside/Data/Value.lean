import Offside.Data.Calendar
import Offside.Number.Double

/-!
Data as people write it in settings: what a value is, when two values are the same key, and which
values say nothing.
-/
namespace Offside.Data

/-- The kinds of collections. -/
inductive Shape
  | list
  | mapping
  | set
  | ordered
deriving DecidableEq, Repr, Inhabited

/-- A value. A `tuple` is a list that serves as a key or as a pair; an `ordered` mapping is one
whose order counts. Data can refer to a collection from within it; there, `enclosing` stands for
the collection. -/
inductive Value
  | null
  | boolean (value : Bool)
  | integer (value : Int)
  | double (value : Double)
  | text (value : Text)
  | bytes (value : List Nat)
  | date (value : Date)
  | moment (date : Date) (time : Time) (zone : Option Zone)
  | list (items : List Value)
  | tuple (items : List Value)
  | set (items : List Value)
  | mapping (members : List (Value × Value))
  | ordered (members : List (Value × Value))
  | enclosing (shape : Shape)
deriving Repr, Inhabited

namespace Value

/-- The number that a value counts as among keys. -/
def number? : Value → Option (Int ⊕ Double)
  | boolean b => some (.inl (if b then 1 else 0))
  | integer n => some (.inl n)
  | double x =>
    match x.toInt? with
    | some n => some (.inl n)
    | none => some (.inr x)
  | _ => none

def sameNumber : Int ⊕ Double → Int ⊕ Double → Bool
  | .inl a, .inl b => a == b
  | .inr a, .inr b => a == b
  | _, _ => false

/-- Whether two times are the same key: in zones, if they are at the same instant. -/
def sameMoment (a : Date) (t : Time) (y : Option Zone) (b : Date) (u : Time) (z : Option Zone) :
    Bool :=
  match y, z with
  | none, none => a == b && t == u
  | some y, some z => instant a t y == instant b u z
  | _, _ => false

mutual

/-- Whether two values are the same key. Numbers of all kinds are compared by value. -/
def sameKey : Value → Value → Bool
  | tuple xs, tuple ys => sameKeys xs ys
  | null, null => true
  | text s, text t => s == t
  | bytes xs, bytes ys => xs == ys
  | date a, date b => a == b
  | moment a t y, moment b u z => sameMoment a t y b u z
  | a, b =>
    match number? a, number? b with
    | some x, some y => sameNumber x y
    | _, _ => false

def sameKeys : List Value → List Value → Bool
  | [], [] => true
  | x :: xs, y :: ys => sameKey x y && sameKeys xs ys
  | _, _ => false

end

/-- The members of a mapping of either kind. -/
def members? : Value → Option (List (Value × Value))
  | mapping members | ordered members => some members
  | _ => none

/-- Whether a value says nothing: null, false, zero, or nothing inside. -/
def isVoid : Value → Bool
  | null => true
  | boolean b => !b
  | integer n => n == 0
  | double x => x.isZero
  | text s => s.isEmpty
  | bytes s => s.isEmpty
  | date _ => false
  | moment _ _ _ => false
  | list items => items.isEmpty
  | tuple items => items.isEmpty
  | set items => items.isEmpty
  | mapping members => members.isEmpty
  | ordered members => members.isEmpty
  | enclosing _ => false

end Value

end Offside.Data
