import Offside.Markup.Literal
import Offside.Markup.TypeText

/-!
Expressions of a script. Which operator binds stronger does not matter to what is markup, so a
chain of operands and operators is read from left to right; an operand that stands alone keeps its
own node.
-/
namespace Offside.Markup.Expression

def nameOf (c stop : Cursor) : Node := .mk .identifier c.pos stop.pos []

/-- The cursor behind a word that has to follow as a whole. -/
def expectWord? (c : Cursor) (word : String) : Option Cursor :=
  if wordAt c == word.toList then some (c.skip word.length) else none

/-- The cursor behind the gap and a sign that has to follow it. -/
def signAfter? (c : Cursor) (sign : String) : Option Cursor := (skipGap c).expect? sign.toList

/-- Reads a type behind its colon, if there is a colon. -/
def readTypeMark (n : Nested) (c : Cursor) : Option Cursor :=
  match signAfter? c ":" with
  | none => some c
  | some c1 => (n.typeText (skipGap c1)).map Prod.snd

/-- Reads the value behind an equals sign, if there is one. -/
def readDefault (n : Nested) : Reader (List Node) := fun c =>
  match signAfter? c "=" with
  | none => some ([], c)
  | some c1 => do
    let (node, c2) ← n.expression true (skipOpenGap c1)
    some ([node], c2)

/-- Reads a parameter: a pattern, its type and its value. -/
def readParameter (n : Nested) : Reader (List Node) := fun c => do
  let c1 := ((c.expect? "...".toList).map skipGap).getD c
  let (names, c2) ← n.pattern c1
  let c3 := (signAfter? c2 "?").getD c2
  let c4 ← readTypeMark n c3
  let (value, c5) ← readDefault n c4
  some (names ++ value, c5)

def readParameters (n : Nested) : Reader (List Node) := fun c => do
  let c1 ← c.expectChar? '('
  readItems n.steps false (readParameter n) ')' c1

def readBody (n : Nested) : Reader Node := fun c => do
  let c1 ← c.expectChar? '\x7b'
  let (nodes, c2) ← n.block c1
  let c3 ← c2.expectChar? '\x7d'
  some (.mk .script c.pos c3.pos nodes, c3)

/-- Reads a name for a type, with the type that it has to fit and the one that it has by default. -/
def readTypeParameter (n : Nested) : Reader (List Node) := fun c => do
  let behind := skipGap (c.skip 5)
  let c1 := if wordAt c == "const".toList && startsName behind.rest then behind else c
  let (_, c2) ← readName c1
  let c3 ←
    match expectWord? (skipGap c2) "extends" with
    | some c3 => (n.typeText (skipGap c3)).map Prod.snd
    | none => some c2
  match signAfter? c3 "=" with
  | some c4 => n.typeText (skipGap c4)
  | none => some ([], c3)

/-- Reads names for types in angle brackets, if there are any. -/
def readTypeParameters (n : Nested) (c : Cursor) : Cursor :=
  let names : Option (List Node × Cursor) := do
    let c1 ← c.expectChar? '<'
    guard ((skipGap c1).rest.head? != some '>')
    readItems n.steps false (readTypeParameter n) '>' c1
  (names.map fun (_, c1) => skipGap c1).getD c

/-- Reads parameters, the type of the result, and a body. -/
def readMethod (n : Nested) : Reader (List Node) := fun c => do
  let (names, c1) ← readParameters n (readTypeParameters n c)
  let c2 ← readTypeMark n c1
  let (body, c3) ← readBody n (skipGap c2)
  some (names ++ [body], c3)

def readArrow (n : Nested) (typed : Bool) : Reader Node := fun c =>
  (head c).or
    ((expectWord? c "async").bind fun c1 =>
      (head (skipGap c1)).map fun (node, c2) => (.mk .arrow c.pos c2.pos node.children, c2))
where
  /-- Reads a name or parameters, and what follows the arrow. -/
  head : Reader Node := fun c =>
    if startsName c.rest then do
      let (_, c1) ← readName c
      body c [nameOf c c1] c1
    else do
      let (names, c1) ← readParameters n (readTypeParameters n c)
      let c2 ← if typed then readTypeMark n c1 else some c1
      body c names c2
  /-- Reads the arrow and the body. -/
  body (start : Cursor) (names : List Node) : Reader Node := fun c => do
    let c1 ← signAfter? c "=>"
    let (between, c2) ← openGap c1
    let (node, c3) ←
      if c2.rest.head? == some '\x7b' then readBody n c2 else n.expression typed c2
    some (.mk .arrow start.pos c3.pos (names ++ between ++ [node]), c3)

/-- Reads a function behind the word that starts it. -/
def readFunction (n : Nested) (start : Cursor) : Reader Node := fun c => do
  let c1 := ((signAfter? c "*").getD c)
  let c2 := skipGap c1
  let c3 := match readName c2 with
    | some (_, next) => skipGap next
    | none => c2
  let (nodes, c4) ← readMethod n c3
  some (.mk .script start.pos c4.pos nodes, c4)

/-- Reads a class behind the word that starts it: what stands before its braces, and the braces. -/
def readClass (n : Nested) (start : Cursor) : Reader Node := fun c => do
  let (_, _, c1) ← repeatStep step n.steps () c
  let (node, c2) ← readBody n c1
  some (.mk .script start.pos c2.pos [node], c2)
where
  /-- Reads a word of the head of a class. -/
  step (_ : Unit) (c : Cursor) : Option (Step Unit) :=
    let c1 := skipGap c
    match c1.rest with
    | [] => none
    | x :: _ =>
      if x == '\x7b' then some (.done [] () c1)
      else if x == '.' || x == ',' then some (.more [] () (c1.skip 1))
      else if x == '(' then do
        let (_, c2) ← n.block (c1.skip 1)
        let c3 ← c2.expectChar? ')'
        some (.more [] () c3)
      else if x == '<' then do
        let (_, c2) ← n.typeArguments c1
        some (.more [] () c2)
      else do
        let (_, c2) ← readName c1
        some (.more [] () c2)

def readGroup (n : Nested) : Reader Node := fun c => do
  let c1 ← c.expectChar? '('
  let (before, c2) ← openGap c1
  let (node, c3) ← n.sequence true c2
  let c4 ← readTypeMark n c3
  let (after, c5) ← readClosing ')' c4
  some (.mk .group c.pos c5.pos (before ++ node :: after), c5)

/-- Words that can stand before the name of a method. -/
def methodWords : List Text := ["get", "set", "async", "static"].map String.toList

def readMember (n : Nested) : Reader (List Node) := fun c =>
  match n.spread c with
  | some (node, c1) => some ([node], c1)
  | none =>
    let word := wordAt c
    let next := skipGap (c.skip word.length)
    let marked := methodWords.contains word &&
      next.rest.head?.any fun x =>
        isNamePart x || x == '[' || x == '"' || x == '\x27' || x == '*' || x == '#'
    let c0 := if marked then next else c
    named (marked || c0.rest.head? == some '*') (((c0.expectChar? '*').map skipGap).getD c0)
where
  /-- Reads a member at its name. -/
  named (method : Bool) (c : Cursor) : Option (List Node × Cursor) := do
    let (key, plain, c1) ← readKey c
    match (if method then none else signAfter? c1 ":") with
    | some c2 => do
      let (between, c3) ← openGap c2
      let (node, c4) ← n.expression true c3
      some (key ++ between ++ [node], c4)
    | none =>
      match readMethod n (skipGap c1) with
      | some (nodes, c2) => some (key ++ nodes, c2)
      | none => if plain && !method then some (key, c1) else none
  /-- Reads the name of a member; the flag tells whether it can stand for a value. -/
  readKey (c : Cursor) : Option (List Node × Bool × Cursor) :=
    match c.rest with
    | [] => none
    | x :: _ =>
      if x == '"' || x == '\x27' then (readString c).map fun (node, c1) => ([node], false, c1)
      else if x.isDigit || x == '.' then
        (readNumber c).map fun (node, c1) => ([node], false, c1)
      else if x == '[' then do
        let (node, c1) ← n.expression true (skipOpenGap (c.skip 1))
        let c2 ← signAfter? c1 "]"
        some ([node], false, c2)
      else if x == '#' then
        (readName (c.skip 1)).map fun (_, c1) => ([nameOf c c1], false, c1)
      else (readName c).map fun (_, c1) => ([nameOf c c1], true, c1)

def readObject (n : Nested) : Reader Node := fun c => do
  let c1 ← c.expectChar? '\x7b'
  let (nodes, c2) ← readItems n.steps true (readMember n) '\x7d' c1
  some (.mk .script c.pos c2.pos nodes, c2)

def readArray (n : Nested) : Reader Node := fun c => do
  let c1 ← c.expectChar? '['
  let (nodes, c2) ← readItems n.steps true n.argument ']' c1
  some (.mk .script c.pos c2.pos nodes, c2)

/-- Reads a value that may be put off, with or without what it yields. -/
def readYield (n : Nested) (typed : Bool) (start : Cursor) : Reader Node := fun c =>
  let c1 := (signAfter? c "*").getD c
  match n.expression typed (skipGap c1) with
  | some (node, c2) => some (.mk .script start.pos c2.pos [node], c2)
  | none => if c1 == c then some (.mk .script start.pos c.pos [], c) else none

/-- Words that stand for a value of their own and are no names. -/
def valueWords : List Text := ["this", "super", "null", "true", "false"].map String.toList

/-- Reads what starts with a word: a function, a class, or a name. -/
def readWord (n : Nested) (typed : Bool) : Reader Node := fun c => do
  let (word, c1) ← readName c
  if word == "function".toList then readFunction n c c1
  else if word == "class".toList then readClass n c c1
  else if word == "yield".toList then readYield n typed c c1
  else if word == "import".toList then
    if (signAfter? c1 "(").isSome || (signAfter? c1 ".").isSome then some (nameOf c c1, c1)
    else none
  else if word == "async".toList then
    match expectWord? (skipGap c1) "function" with
    | some c2 => readFunction n c c2
    | none => some (nameOf c c1, c1)
  else if valueWords.contains word then some (.mk (.other word) c.pos c1.pos [], c1)
  else some (nameOf c c1, c1)

/-- Reads the name of a hidden member; it can only be looked for in an object. -/
def readHiddenName : Reader Node := fun c => do
  let (_, c1) ← readName (c.skip 1)
  let _ ← expectWord? (skipGap c1) "in"
  some (.mk .propertyName c.pos c1.pos [], c1)

/-- Reads an operand without signs before or behind it. -/
def readPrimary (n : Nested) (typed : Bool) : Reader Node := fun c =>
  match c.rest with
  | [] => none
  | x :: _ =>
    if x == '(' then (readArrow n typed c).or (readGroup n c)
    else if x == '<' then (n.markup c).or (readArrow n typed c)
    else if x == '[' then readArray n c
    else if x == '\x7b' then readObject n c
    else if x == '"' || x == '\x27' then readString c
    else if x == '\x60' then readTemplate n c
    else if x == '/' then readRegex c
    else if x.isDigit || x == '.' then readNumber c
    else if x == '#' then readHiddenName c
    else (readArrow n typed c).or (readWord n typed c)

/-- Words before an operand that need one. -/
def prefixWords : List Text :=
  ["typeof", "void", "delete", "await", "new"].map String.toList

/-- The cursor at what follows a sign or a word before an operand. The word for a new object is an
operand itself before a point. -/
def lead? (c : Cursor) : Option Cursor :=
  let word := wordAt c
  let next := skipOpenGap (c.skip word.length)
  if prefixWords.contains word && !(word == "new".toList && next.rest.head? == some '.') then
    some next
  else
    match c.rest with
    | '+' :: '+' :: _ => some (skipOpenGap (c.skip 2))
    | '-' :: '-' :: _ => some (skipOpenGap (c.skip 2))
    | x :: _ =>
      if x == '+' || x == '-' || x == '!' || x == '~' then some (skipOpenGap (c.skip 1)) else none
    | [] => none

/-- Reads signs and words before an operand. -/
def leads (_ : Unit) (c : Cursor) : Option (Step Unit) :=
  match lead? c with
  | some c1 => some (.more [] () c1)
  | none => some (.done [] () c)

/-- Whether what follows can stand behind types that are given to a name. -/
def endsOperand (c : Cursor) : Bool :=
  match c.rest with
  | [] => true
  | x :: _ => [')', ']', '\x7d', ',', ';', ':'].contains x

/-- Reads one thing behind an operand: a member, an index, arguments, a sign. The state tells
whether something can be assigned to the operand. -/
def trailer (n : Nested) (target : Bool) (c : Cursor) : Option (Step Bool) :=
  let c1 := skipGap c
  let stop : Option (Step Bool) := some (.done [] target c)
  let name (c : Cursor) : Option (Step Bool) := do
    let c2 := skipGap c
    let start := (c2.expectChar? '#').getD c2
    let (_, c3) ← readName start
    some (.more [.mk .propertyName c2.pos c3.pos []] true c3)
  let index (c : Cursor) : Option (Step Bool) := do
    let (before, c2) ← openGap c
    let (node, c3) ← n.sequence true c2
    let (after, c4) ← readClosing ']' c3
    some (.more (before ++ node :: after) true c4)
  let arguments (c : Cursor) : Option (Step Bool) := do
    let (nodes, c2) ← readItems n.steps true n.argument ')' c
    some (.more nodes false c2)
  let template (c : Cursor) : Option (Step Bool) := do
    let (node, c2) ← readTemplate n c
    some (.more [node] false c2)
  match c1.rest with
  | '.' :: '.' :: _ => stop
  | '.' :: _ => name (c1.skip 1)
  | '?' :: '.' :: s =>
    if s.head?.any Char.isDigit then stop
    else
      let c2 := skipGap (c1.skip 2)
      match c2.rest with
      | '[' :: _ => index (c2.skip 1)
      | '(' :: _ => arguments (c2.skip 1)
      | _ => name c2
  | '[' :: _ => index (c1.skip 1)
  | '(' :: _ => arguments (c1.skip 1)
  | '\x60' :: _ => template c1
  | '+' :: '+' :: _ => some (.more [] false (c1.skip 2))
  | '-' :: '-' :: _ => some (.more [] false (c1.skip 2))
  | '!' :: '=' :: '=' :: _ => stop
  | '!' :: '=' :: _ => stop
  | '!' :: _ => some (.more [] target (c1.skip 1))
  | '<' :: _ =>
    match n.typeArguments c1 with
    | none => stop
    | some (types, c2) =>
      let c3 := skipGap c2
      match c3.rest with
      | '(' :: _ => (arguments (c3.skip 1)).map fun
        | .more nodes target next => .more (types :: nodes) target next
        | .done nodes target next => .done nodes target next
      | '\x60' :: _ => template c3
      | _ => if endsOperand c3 then some (.more [types] false c2) else stop
  | _ => stop

/-- Whether a value can be assigned to what a node stands for. -/
def isTarget (n : Node) : Bool :=
  n.kind == .identifier || n.kind == .group || n.kind == .script

structure Operand where
  node : Node
  /-- Whether something can be assigned to it. -/
  target : Bool

def readOperand (n : Nested) (typed : Bool) : Reader Operand := fun c => do
  let (_, _, c1) ← repeatStep leads n.steps () c
  let (node, c2) ← readPrimary n typed c1
  let (nodes, target, c3) ← repeatStep (trailer n) n.steps (isTarget node) c2
  let bare := c1 == c
  if bare && c3 == c2 then some (⟨node, target⟩, c2)
  else some (⟨.mk .script c.pos c3.pos (node :: nodes), bare && target⟩, c3)

/-- Signs that give a value to what stands before them. -/
def assignments : List Text :=
  [">>>=", "**=", "<<=", ">>=", "&&=", "||=", "??=", "+=", "-=", "*=", "/=", "%=", "&=", "^=",
    "|="].map String.toList

/-- Signs between two operands, longer ones first. -/
def operators : List Text :=
  [">>>", "===", "!==", "**", "<<", ">>", ">=", "<=", "==", "!=", "&&", "||", "??", "+", "-", "*",
    "/", "%", "&", "|", "^", "<", ">"].map String.toList

def assignment? (c : Cursor) : Option Cursor :=
  match c.rest with
  | '=' :: '=' :: _ => none
  | '=' :: '>' :: _ => none
  | '=' :: _ => some (c.skip 1)
  | _ => assignments.findSome? c.expect?

/-- The cursor behind a sign or a word between two operands. -/
def operator? (c : Cursor) : Option Cursor :=
  let word := wordAt c
  if word == "in".toList || word == "instanceof".toList then some (c.skip word.length)
  else operators.findSome? c.expect?

/-- The cursor behind a word that gives a value a type. -/
def typeWord? (c : Cursor) : Option Cursor :=
  (expectWord? c "as").or (expectWord? c "satisfies")

/-- Reads an operator and an operand, or the end of a chain. The state tells whether something can
be assigned to what has been read. -/
def link (n : Nested) (typed : Bool) (target : Bool) (c : Cursor) : Option (Step Bool) := do
  let (comments, c1) ← gap c
  let stop : Option (Step Bool) := some (.done [] target c)
  match assignment? c1 with
  | some c2 =>
    if target then do
      let (between, c3) ← openGap c2
      let (node, c4) ← n.expression typed c3
      some (.done (comments ++ between ++ [node]) false c4)
    else stop
  | none =>
    match typeWord? c1 with
    | some c2 => do
      let (nodes, c3) ← n.typeText (skipGap c2)
      some (.more (comments ++ nodes) false c3)
    | none =>
      match operator? c1 with
      | some c2 => do
        let (between, c3) ← openGap c2
        let (operand, c4) ← readOperand n typed c3
        some (.more (comments ++ between ++ [operand.node]) false c4)
      | none =>
        match c1.expectChar? '?' with
        | none => stop
        | some c2 => do
          let (first, c3) ← n.expression false (skipOpenGap c2)
          let c4 ← signAfter? c3 ":"
          let (second, c5) ← n.expression typed (skipOpenGap c4)
          some (.done (comments ++ [first, second]) false c5)

/-- Reads an expression without a comma. -/
def read (n : Nested) (typed : Bool) : Reader Node := fun c => do
  let (first, c1) ← readOperand n typed c
  let (nodes, _, c2) ← repeatStep (link n typed) n.steps first.target c1
  if c2 == c1 then some (first.node, c1)
  else some (.mk .script c.pos c2.pos (first.node :: nodes), c2)

/-- Reads what a value is bound to. -/
def readPattern (n : Nested) : Reader (List Node) := fun c =>
  match c.rest with
  | '\x7b' :: _ => readItems n.steps true member '\x7d' (c.skip 1)
  | '[' :: _ => readItems n.steps true item ']' (c.skip 1)
  | _ => do
    let (_, c1) ← readName c
    some ([nameOf c c1], c1)
where
  /-- Reads a pattern with its value. -/
  item : Reader (List Node) := fun c => do
    let c1 := ((c.expect? "...".toList).map skipGap).getD c
    let (names, c2) ← n.pattern c1
    let (value, c3) ← readDefault n c2
    some (names ++ value, c3)
  /-- Reads a pattern, perhaps with the name of the member that it takes. -/
  member : Reader (List Node) := fun c =>
    let renamed : Option (List Node × Cursor) := do
      let (_, _, c1) ← readMember.readKey n c
      let c2 ← signAfter? c1 ":"
      item (skipGap c2)
    renamed.or (item c)

end Offside.Markup.Expression
