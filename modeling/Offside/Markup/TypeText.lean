import Offside.Markup.Nested

/-!
The types that a script can name. Only their extent is kept.
-/
namespace Offside.Markup.TypeText

/-- Words that a type can start with and that another type follows. -/
def leadWords : List Text :=
  ["keyof", "typeof", "readonly", "unique", "infer", "asserts", "new", "abstract"].map
    String.toList

/-- Reads what stands between brackets that are already open. -/
def readBlock (n : Nested) (close : Char) : Reader Unit := fun c => do
  let (_, c1) ← n.block c
  let c2 ← c1.expectChar? close
  some ((), c2)

/-- Reads names with points between them. -/
def readPath (steps : Nat) : Reader Unit := fun c => do
  let (_, c1) ← readName c
  let (_, _, c2) ← repeatStep step steps () c1
  some ((), c2)
where
  /-- Reads a point and a name. -/
  step (_ : Unit) (c : Cursor) : Option (Step Unit) :=
    match (skipGap c).expectChar? '.' with
    | none => some (.done [] () c)
    | some c1 => do
      let (_, c2) ← readName (skipGap c1)
      some (.more [] () c2)

/-- Reads a type behind an arrow, if there is an arrow. -/
def readResult (n : Nested) : Reader Unit := fun c =>
  match (skipGap c).expect? "=>".toList with
  | none => some ((), c)
  | some c1 => do
    let (_, c2) ← n.typeText (skipGap c1)
    some ((), c2)

/-- Reads a type that no sign follows. -/
def readPrimary (n : Nested) : Reader Unit := fun c =>
  match c.rest with
  | [] => none
  | x :: s =>
    if x == '"' || x == '\x27' then do
      let c1 ← readStringEnd x (c.pos + 1) 0 s
      some ((), c1)
    else if x == '\x7b' then readBlock n '\x7d' (c.skip 1)
    else if x == '[' then readBlock n ']' (c.skip 1)
    else if x == '(' then do
      let (_, c1) ← readBlock n ')' (c.skip 1)
      readResult n c1
    else if x == '<' then do
      let (_, c1) ← n.typeArguments c
      let c2 ← (skipGap c1).expectChar? '('
      let (_, c3) ← readBlock n ')' c2
      readResult n c3
    else if x == '-' then do
      let k ← numberLength? s
      some ((), c.skip (k + 1))
    else if x.isDigit then do
      let k ← numberLength? c.rest
      some ((), c.skip k)
    else do
      let (_, c1) ← readPath n.steps c
      match n.typeArguments (skipGap c1) with
      | some (_, c2) => some ((), c2)
      | none => some ((), c1)

/-- Reads words in front of a type, a type, and brackets behind it. -/
def readOperand (n : Nested) : Reader Unit := fun c => do
  let (_, _, c1) ← repeatStep lead n.steps () c
  let (_, c2) ← readPrimary n c1
  let (_, _, c3) ← repeatStep bracket n.steps () c2
  some ((), c3)
where
  /-- Reads a word that another type follows. -/
  lead (_ : Unit) (c : Cursor) : Option (Step Unit) :=
    let word := wordAt c
    let next := skipGap (c.skip word.length)
    if leadWords.contains word && (!(wordAt next).isEmpty || next.rest.head? == some '(') then
      some (.more [] () next)
    else some (.done [] () c)
  /-- Reads brackets. -/
  bracket (_ : Unit) (c : Cursor) : Option (Step Unit) :=
    match (skipGap c).expectChar? '[' with
    | none => some (.done [] () c)
    | some c1 => do
      let (_, c2) ← readBlock n ']' c1
      some (.more [] () c2)

/-- Reads a type: operands with bars or ampersands between them, perhaps with a condition. -/
def read (n : Nested) : Reader (List Node) := fun c => do
  let c0 := (sign? c).getD c
  let (_, c1) ← readOperand n c0
  let (_, _, c2) ← repeatStep step n.steps () c1
  some ([], c2)
where
  /-- The cursor behind a bar or an ampersand that joins types. -/
  sign? (c : Cursor) : Option Cursor :=
    match c.rest with
    | x :: y :: _ => if (x == '|' || x == '&') && x != y then some (skipGap (c.skip 1)) else none
    | _ => none
  /-- Reads what joins two types, and the second one. -/
  step (_ : Unit) (c : Cursor) : Option (Step Unit) :=
    let c1 := skipGap c
    let word := wordAt c1
    match sign? c1 with
    | some c2 => do
      let (_, c3) ← readOperand n c2
      some (.more [] () c3)
    | none =>
      if word == "is".toList then do
        let (_, c2) ← readOperand n (skipGap (c1.skip 2))
        some (.more [] () c2)
      else if word == "extends".toList then
        match condition (skipGap (c1.skip 7)) with
        | some c2 => some (.more [] () c2)
        | none => do
          let (_, c2) ← readOperand n (skipGap (c1.skip 7))
          some (.more [] () c2)
      else some (.done [] () c)
  /-- Reads the rest of a condition on types. -/
  condition (c : Cursor) : Option Cursor := do
    let (_, c1) ← readOperand n c
    let c2 ← (skipGap c1).expectChar? '?'
    let (_, c3) ← n.typeText (skipGap c2)
    let c4 ← (skipGap c3).expectChar? ':'
    let (_, c5) ← n.typeText (skipGap c4)
    some c5

end Offside.Markup.TypeText
