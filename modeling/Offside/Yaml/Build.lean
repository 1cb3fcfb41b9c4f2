import Offside.Data.Shown
import Offside.Yaml.Meaning
import Offside.Yaml.Node

/-!
Data from the nodes of a document. The contents of a collection are due when the collections around
it have theirs, so that a node can hold itself; a key is made at once with all that it holds. A
mapping takes over the members of others before it gets its own.
-/
namespace Offside.Yaml

open Data

/-- A value that is being made. -/
inductive Item
  | known (value : Value)
  | tuple (items : List Item)
  /-- The collection of a node, whose contents may be due. -/
  | collection (node : NodeId)
deriving Repr, Inhabited

/-- What a collection holds so far. -/
inductive Cell
  | list (items : List Item)
  | set (keys : List Value)
  | mapping (members : List (Value × Item))
  | ordered (members : List (Value × Item))
deriving Repr, Inhabited

def Cell.shape : Cell → Shape
  | list _ => .list
  | set _ => .set
  | mapping _ => .mapping
  | ordered _ => .ordered

/-- What has been made of a document. -/
structure Build where
  version : Version
  nodes : Array Node
  /-- The mappings that have taken over members. -/
  merging : List NodeId
  /-- What has been made of each node. -/
  made : Array (Option Item)
  /-- The nodes that are being made. -/
  busy : List NodeId
  /-- What the collection of each node holds. -/
  cells : Array Cell
  /-- The collections whose contents are due, the last one first. -/
  due : List NodeId
  /-- Whether contents are made at once. -/
  atOnce : Bool

/-- What makes a part of the data. -/
abbrev Builder := StateT Build (Except Fault)

/-- What makes the value of a node; the flag asks for all that it holds at once. -/
abbrev Maker := Bool → NodeId → Builder Item

/-- A pair of a mapping. -/
abbrev NodePair := NodeId × NodeId

namespace Builder

/-- Stops at what has no value. -/
def refuse {α : Type} : Builder α := throw .malformed

def nodeOf (id : NodeId) : Builder Node := do
  match (← get).nodes[id]? with
  | some n => return n
  | none => refuse

def itemsOf (id : NodeId) : Builder (List NodeId) := do
  match (← nodeOf id).content with
  | .sequence items => return items
  | _ => refuse

def pairsOf (id : NodeId) : Builder (List NodePair) := do
  match (← nodeOf id).content with
  | .mapping pairs => return pairs
  | _ => refuse

def changeNode (id : NodeId) (f : Node → Node) : Builder Unit :=
  modify fun b => { b with nodes := b.nodes.modify id f }

def setPairs (id : NodeId) (pairs : List NodePair) : Builder Unit :=
  changeNode id ({ · with content := .mapping pairs })

def setCell (id : NodeId) (c : Cell) : Builder Unit :=
  modify fun b => { b with cells := b.cells.setIfInBounds id c }

/-- What the collection of a node holds. -/
def cellOf (id : NodeId) : Builder Cell := do return ((← get).cells[id]?).getD (.list [])

/-- The pairs that the value of a merge sign stands for. Of several mappings the first ones win, so
they come last. -/
def takenPairs (flatten : NodeId → Builder Unit) (id : NodeId) : Builder (List NodePair) := do
  match (← nodeOf id).content with
  | .mapping _ =>
    flatten id
    pairsOf id
  | .sequence items =>
    let parts ← items.mapM fun item => do
      let _ ← pairsOf item
      flatten item
      pairsOf item
    return parts.reverse.flatten
  | .scalar _ => refuse

/-- Puts the pairs that a mapping takes over before its own. It takes over members once; a sign for
its own value is a text. -/
def flattenPairs (flatten : NodeId → Builder Unit) (id : NodeId) (kept taken : List NodePair) :
    List NodePair → Builder Unit
  | [] => do
    setPairs id (taken ++ kept)
    if !taken.isEmpty then modify fun b => { b with merging := id :: b.merging }
  | (k, v) :: rest => do
    match (← nodeOf k).kind with
    | .merge =>
      if !taken.isEmpty then refuse
      setPairs id (kept ++ rest)
      flattenPairs flatten id kept (← takenPairs flatten v) rest
    | .standIn =>
      changeNode k ({ · with kind := .text })
      flattenPairs flatten id (kept ++ [(k, v)]) taken rest
    | _ => flattenPairs flatten id (kept ++ [(k, v)]) taken rest

/-- Lets a mapping take over the members that it asks for. -/
def flatten : Nat → NodeId → Builder Unit
  | 0, _ => refuse
  | steps + 1, id => do flattenPairs (flatten steps) id [] [] (← pairsOf id)

/-- A bound for how deep mappings can take over members: each step takes a sign away. -/
def flattenLimit : Builder Nat := do
  return (← get).nodes.foldl (fun n node =>
    match node.content with
    | .mapping pairs => n + pairs.length
    | _ => n) 1

/-- A key: a list becomes a tuple of what it holds so far, and no other collection is one. -/
def asKey : Item → Builder Item
  | .collection id => do
    match ← cellOf id with
    | .list items => return .tuple items
    | _ => refuse
  | item => return item

mutual

/-- The value of a key. What holds a collection is none. -/
def keyValue : Item → Builder Value
  | .known v => return v
  | .tuple items => do return .tuple (← keyValues items)
  | .collection id => do throw (.unhashable (← cellOf id).shape.name)

def keyValues : List Item → Builder (List Value)
  | [] => return []
  | item :: items => do
    let v ← keyValue item
    return v :: (← keyValues items)

end

def hasKey (key : Value) (members : List (Value × Item)) : Bool := members.any (·.1.sameKey key)

/-- Puts a member into a mapping. One with the same key gives way, but keeps its place. -/
def put (key : Value) (value : Item) : List (Value × Item) → List (Value × Item)
  | [] => [(key, value)]
  | (k, v) :: members =>
    if k.sameKey key then (k, value) :: members else (k, v) :: put key value members

/-- Makes the members of a mapping. A key may stand twice only where members are taken over. -/
def makeMembers (make : Maker) (id : NodeId) : Builder (List (Value × Item)) := do
  flatten (← flattenLimit) id
  let isMerging := (← get).merging.contains id
  (← pairsOf id).foldlM (fun members (k, v) => do
    let key ← asKey (← make true k)
    let value ← make false v
    let key ← keyValue key
    if !isMerging && hasKey key members then refuse
    return put key value members) []

def singlePair (id : NodeId) : Builder NodePair := do
  match ← pairsOf id with
  | [pair] => return pair
  | _ => refuse

/-- Makes the members of an ordered mapping: a sequence of mappings with one pair each. -/
def makeOrdered (make : Maker) (id : NodeId) : Builder (List (Value × Item)) := do
  (← itemsOf id).foldlM (fun members part => do
    let (k, v) ← singlePair part
    let key ← keyValue (← make false k)
    if hasKey key members then throw .repeatedKey
    return put key (← make false v) members) []

def makePairs (make : Maker) (id : NodeId) : Builder (List Item) := do
  (← itemsOf id).mapM fun part => do
    let (k, v) ← singlePair part
    let key ← make false k
    return .tuple [key, ← make false v]

/-- Makes the contents of the collection of a node. -/
def fill (make : Maker) (id : NodeId) : Builder Unit := do
  match (← nodeOf id).kind with
  | .sequence => setCell id (.list (← (← itemsOf id).mapM (make false)))
  | .pairs => setCell id (.list (← makePairs make id))
  | .set => setCell id (.set ((← makeMembers make id).map Prod.fst))
  | .ordered => setCell id (.ordered (← makeOrdered make id))
  | _ => setCell id (.mapping (← makeMembers make id))

/-- The text of a scalar. A mapping stands for the value of its stand-in sign. -/
def scalarText : Nat → NodeId → Builder Text
  | 0, _ => refuse
  | steps + 1, id => do
    match (← nodeOf id).content with
    | .scalar s => return s
    | .sequence _ => refuse
    | .mapping pairs =>
      match ← pairs.findM? fun pair => do return (← nodeOf pair.1).kind == .standIn with
      | some (_, v) => scalarText steps v
      | none => refuse

/-- The empty collection of a kind of node. -/
def emptyCell? : Kind → Option Cell
  | .sequence | .pairs => some (.list [])
  | .set => some (.set [])
  | .mapping => some (.mapping [])
  | .ordered => some (.ordered [])
  | _ => none

/-- Makes what a node stands for. -/
def makeNew (make : Maker) (id : NodeId) : Builder Item := do
  let n ← nodeOf id
  match emptyCell? n.kind with
  | some c =>
    setCell id c
    if (← get).atOnce then fill make id else modify fun b => { b with due := id :: b.due }
    return .collection id
  | none =>
    let b ← get
    let s ← match n.kind, n.content with
      | .moment, .scalar s => pure s
      | .moment, _ => refuse
      | _, _ => scalarText (b.nodes.size + 1) id
    match Scalar.value b.version n.kind s with
    | .ok v => return .known v
    | .error f => throw f

/-- Makes the value of a node, unless it has been made. A node that is needed while it is being made
is null. -/
def make : Nat → Maker
  | 0, _, _ => refuse
  | steps + 1, atOnce, id => do
    let b ← get
    match (b.made[id]?).join with
    | some item => return item
    | none =>
      if b.busy.contains id then return .known .null
      set { b with busy := id :: b.busy, atOnce := b.atOnce || atOnce }
      let item ← makeNew (make steps) id
      modify fun c => { c with
        busy := b.busy, made := c.made.setIfInBounds id (some item), atOnce := b.atOnce }
      return item

/-- Makes contents in rounds until none are due. -/
def settle (limit : Nat) : Nat → Builder Unit
  | 0 => return
  | rounds + 1 => do
    let due := (← get).due.reverse
    if due.isEmpty then return
    modify fun b => { b with due := [] }
    due.forM (fill (make limit))
    settle limit rounds

/-- Makes the data of a document. -/
def makeRoot (root : NodeId) : Builder Item := do
  let limit := (← get).nodes.size + 1
  let item ← make limit false root
  settle limit limit
  return item

end Builder

/-- The number of slots for the members of a set. -/
def slots (count : Nat) : Nat := if count < 5 then 8 else 2 * Nat.pow 2 (2 * count).log2

/-- The members of a set as they are shown: whole numbers in the order of their slots, and others in
the order in which they are written. -/
def setOrder (keys : List Value) : List Value :=
  let places := keys.mapM fun key =>
    match key.number? with
    | some (.inl n) => some (n % slots keys.length, key)
    | _ => none
  match places with
  | some places => (places.mergeSort (fun a b => a.1 ≤ b.1)).map Prod.snd
  | none => keys

/-- The value of what has been made. `path` has the collections around it that count. Those of the
outermost `levels` do not, so that each part of them is shown as if it stood alone. -/
def Build.value (b : Build) : Nat → Nat → List NodeId → Item → Value
  | 0, _, _, _ => .null
  | steps + 1, levels, path, item =>
    match item with
    | .known v => v
    | .tuple items => .tuple (items.map (b.value steps levels path))
    | .collection id =>
      let cell := (b.cells[id]?).getD (.list [])
      if path.contains id then .enclosing cell.shape
      else
        let inner := b.value steps (levels - 1) (if levels == 0 then id :: path else [])
        match cell with
        | .list items => .list (items.map inner)
        | .set keys => .set (setOrder keys)
        | .mapping members => .mapping (members.map fun (k, item) => (k, inner item))
        | .ordered members => .ordered (members.map fun (k, item) => (k, inner item))

/-- The data of a document, whose outermost `levels` are shown part by part. -/
def Document.value (d : Document) (levels : Nat) : Except Fault Value := do
  let count := d.nodes.size
  let start : Build := ⟨d.version, d.nodes, [], Array.replicate count none, [],
    Array.replicate count (.list []), [], false⟩
  let (item, b) ← Builder.makeRoot d.root start
  return b.value (2 * (levels + 1) * (count + 1)) levels [] item

/-- The data of a text; a text without content is null. The outermost `levels` of the data are shown
part by part. -/
def read (levels : Nat) (s : Text) : Except Fault Data.Value := do
  match ← Document.ofText? s with
  | none => return .null
  | some d => d.value levels

end Offside.Yaml
