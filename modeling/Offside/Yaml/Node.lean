import Offside.Yaml.Kind
import Offside.Yaml.Moment
import Offside.Yaml.Token.Scan

/-!
The document that tokens form. Its nodes have numbers, and a collection names its parts by them: a
node can be part of several collections, and of itself. A node gets its number before its parts do,
so that a name can refer to a collection that is still open.
-/
namespace Offside.Yaml

abbrev NodeId := Nat

/-- What a node holds. A mapping keeps its pairs in order. -/
inductive Content
  | scalar (text : Text)
  | sequence (items : List NodeId)
  | mapping (pairs : List (NodeId × NodeId))
deriving DecidableEq, Repr, Inhabited

structure Node where
  kind : Kind
  content : Content
deriving DecidableEq, Repr, Inhabited

/-- The nodes of a document, in the order of their numbers. -/
structure Document where
  version : Version
  nodes : Array Node
  root : NodeId

/-- What is left to read, and what has been read. -/
structure Parse where
  tokens : List Token
  version : Version
  /-- What handles of tags stand for. -/
  handles : List (Text × Text)
  /-- The named nodes, the last one first. -/
  anchors : List (Text × NodeId)
  nodes : Array Node

/-- What reads a part of a document. -/
abbrev Parser := StateT Parse (Except Fault)

namespace Parser

/-- Stops at what does not fit. -/
def refuse {α : Type} : Parser α := throw .malformed

/-- The next token. Looking for one fails where the tokens break off. What a directive says of the
version holds from where it is seen. -/
def peek? : Parser (Option Token) := do
  let t := (← get).tokens.head?
  match t with
  | some (.broken f) => throw f
  | some (.versionDirective v) =>
    modify fun p => { p with version := v }
    return t
  | _ => return t

/-- Whether the next token is one of some. -/
def isNext (ts : List Token) : Parser Bool := do return (← peek?).any ts.contains

def skip : Parser Unit := modify fun p => { p with tokens := p.tokens.drop 1 }

def addNode (n : Node) : Parser NodeId :=
  modifyGet fun p => (p.nodes.size, { p with nodes := p.nodes.push n })

def fill (id : NodeId) (c : Content) : Parser Unit :=
  modify fun p => { p with nodes := p.nodes.modify id ({ · with content := c }) }

/-- Gives a node a name. It stands for the node until another one gets it. -/
def giveName (name : Option Text) (id : NodeId) : Parser Unit :=
  match name with
  | some name => modify fun p => { p with anchors := (name, id) :: p.anchors }
  | none => pure ()

/-- Adds a scalar whose form shows its kind. -/
def plainNode (s : Text) : Parser NodeId := do
  let kind ← Kind.ofPlain (← get).version s
  addNode ⟨kind, .scalar s⟩

/-- Adds a node that is not written. -/
def absent : Parser NodeId := plainNode []

end Parser

open Offside.Yaml.Parser

/-- Where a node stands: within a block, or within brackets; at the value of a key, where the items
of a sequence need no indent of their own. -/
inductive Context
  | block
  | keyed
  | flow
deriving DecidableEq, Repr

/-- What reads a node. -/
abbrev NodeParser := Context → Parser NodeId

/-- Repeats a step until it gives nothing. The flag tells whether it is the first one. -/
def repeatParse {α : Type} (step : Bool → Parser (Option α)) : Nat → Bool → Parser (List α)
  | 0, _ => refuse
  | steps + 1, isFirst => do
    match ← step isFirst with
    | none => return []
    | some item => return item :: (← repeatParse step steps false)

/-- Repeats a step over what is left. -/
def parseMany {α : Type} (step : Bool → Parser (Option α)) : Parser (List α) := do
  repeatParse step ((← get).tokens.length + 1) true

/-- Reads a node unless it is absent, as it is before some tokens. -/
def parseUnless (node : NodeParser) (c : Context) (before : List Token) : Parser NodeId := do
  if ← isNext before then absent else node c

/-- Reads what follows a token, or nothing where the token does not follow. -/
def parseAfter (node : NodeParser) (c : Context) (t : Token) (before : List Token) :
    Parser NodeId := do
  if ← isNext [t] then
    skip
    parseUnless node c before
  else absent

/-- Reads an item of a sequence of lines. -/
def blockItem (node : NodeParser) (_ : Bool) : Parser (Option NodeId) := do
  match ← peek? with
  | some .blockEntry =>
    skip
    return some (← parseUnless node .block [.blockEntry, .blockEnd])
  | some .blockEnd =>
    skip
    return none
  | _ => refuse

/-- Reads an item of a sequence that is not indented. -/
def looseItem (node : NodeParser) (_ : Bool) : Parser (Option NodeId) := do
  if ← isNext [.blockEntry] then
    skip
    return some (← parseUnless node .block [.blockEntry, .key, .value, .blockEnd])
  else return none

/-- Reads a pair of a mapping of lines. Only the old version needs a key before a colon. -/
def blockPair (node : NodeParser) (_ : Bool) : Parser (Option (NodeId × NodeId)) := do
  let before : List Token := [.key, .value, .blockEnd]
  match ← peek? with
  | some .key =>
    skip
    let key ← parseUnless node .keyed before
    return some (key, ← parseAfter node .keyed .value before)
  | some .value =>
    if (← get).version.isNewer then
      let key ← absent
      return some (key, ← parseAfter node .keyed .value before)
    else refuse
  | some .blockEnd =>
    skip
    return none
  | _ => refuse

/-- Passes over the comma before an item in brackets that is not the first. -/
def separate (isFirst : Bool) : Parser Unit := do
  if !isFirst then
    if ← isNext [.flowEntry] then skip else refuse

/-- Reads an item in brackets unless they close. -/
def bracketItem {α : Type} (closing : Token) (item : Parser α) (isFirst : Bool) :
    Parser (Option α) := do
  if ← isNext [closing] then
    skip
    return none
  separate isFirst
  if ← isNext [closing] then
    skip
    return none
  return some (← item)

/-- Reads a pair behind the sign of its key. -/
def keyedPair (node : NodeParser) (closing : Token) : Parser (NodeId × NodeId) := do
  skip
  let key ← parseUnless node .flow [.value, .flowEntry, closing]
  return (key, ← parseAfter node .flow .value [.flowEntry, closing])

/-- Reads an item of a sequence in brackets, which may be a single pair. -/
def flowItem (node : NodeParser) : Bool → Parser (Option NodeId) :=
  bracketItem .flowSequenceEnd do
    if ← isNext [.key] then
      let id ← addNode ⟨.mapping, .mapping []⟩
      let pair ← keyedPair node .flowSequenceEnd
      fill id (.mapping [pair])
      return id
    else node .flow

/-- Reads a pair of a mapping in braces. Only the old version needs a key before a colon. -/
def flowPair (node : NodeParser) : Bool → Parser (Option (NodeId × NodeId)) :=
  bracketItem .flowMappingEnd do
    if ← isNext [.key] then keyedPair node .flowMappingEnd
    else if (← isNext [.value]) && (← get).version.isNewer then
      let key ← absent
      return (key, ← parseAfter node .flow .value [.flowEntry, .flowMappingEnd])
    else
      let key ← node .flow
      return (key, ← absent)

def parseTag : Parser (Option (Option Text × Text)) := do
  match ← peek? with
  | some (.tag handle rest) =>
    skip
    return some (handle, rest)
  | _ => return none

def parseAnchor : Parser (Option Text) := do
  match ← peek? with
  | some (.anchor name) =>
    skip
    return some name
  | _ => return none

/-- The whole text of a tag. A handle that has not been declared is a fault. -/
def wholeTag : Option Text × Text → Parser Text
  | (none, rest) => return rest
  | (some handle, rest) => do
    match (← get).handles.lookup handle with
    | some lead => return lead ++ rest
    | none => refuse

/-- What stands before a node: its tag and its name. -/
structure Properties where
  tag : Option Text
  anchor : Option Text

/-- Reads a tag and a name in any order. -/
def parseProperties : Parser Properties := do
  let first ← parseAnchor
  let tag ← parseTag
  let anchor ← if first.isNone && tag.isSome then parseAnchor else pure first
  return ⟨← tag.mapM wholeTag, anchor⟩

/-- The tag that leaves the kind of a node to its form. -/
def openTag : Text := ['!']

def scalarNode (properties : Properties) (isPlain : Bool) (s : Text) : Parser NodeId := do
  let id ← match properties.tag with
    | none => if isPlain then plainNode s else addNode ⟨.text, .scalar s⟩
    | some tag => if tag == openTag then plainNode s else addNode ⟨.ofTag tag, .scalar s⟩
  giveName properties.anchor id
  return id

/-- Reads a collection that is a sequence or a mapping unless its tag says otherwise. -/
def collectionNode {α : Type} (properties : Properties) (usual : Kind)
    (content : List α → Content) (parts : Parser (List α)) : Parser NodeId := do
  let id ← addNode ⟨((properties.tag.filter (· != openTag)).map Kind.ofTag).getD usual, content []⟩
  giveName properties.anchor id
  fill id (content (← parts))
  return id

/-- Reads what follows the tag and the name of a node. A tag or a name can stand alone. -/
def parseContent (node : NodeParser) (c : Context) (properties : Properties) : Parser NodeId := do
  let sequence := collectionNode properties .sequence .sequence
  let mapping := collectionNode properties .mapping .mapping
  match ← peek? with
  | some (.scalar isPlain s) =>
    skip
    scalarNode properties isPlain s
  | some .flowSequenceStart =>
    skip
    sequence (parseMany (flowItem node))
  | some .flowMappingStart =>
    skip
    mapping (parseMany (flowPair node))
  | t =>
    if t == some .blockEntry && c == .keyed then sequence (parseMany (looseItem node))
    else if t == some .blockSequenceStart && c != .flow then
      skip
      sequence (parseMany (blockItem node))
    else if t == some .blockMappingStart && c != .flow then
      skip
      mapping (parseMany (blockPair node))
    else if properties.tag.isSome || properties.anchor.isSome then scalarNode properties true []
    else refuse

/-- Reads a node of at most some depth. -/
def parseNode : Nat → NodeParser
  | 0, _ => refuse
  | depth + 1, c => do
    match ← peek? with
    | some (.alias name) =>
      skip
      match (← get).anchors.lookup name with
      | some id => return id
      | none => refuse
    | _ => parseContent (parseNode depth) c (← parseProperties)

/-- The handles that need no directive. -/
def defaultHandles : List (Text × Text) :=
  [("!".toList, "!".toList), ("!!".toList, Kind.standardLead)]

/-- Reads the directives before a document. `versioned` tells whether the version has been said. -/
def parseDirectives (versioned : Bool) (handles : List (Text × Text)) :
    Nat → Parser (List (Text × Text))
  | 0 => refuse
  | steps + 1 => do
    match ← peek? with
    | some (.versionDirective v) =>
      skip
      if versioned || v.major != 1 then refuse
      parseDirectives true handles steps
    | some (.tagDirective handle lead) =>
      skip
      if (handles.lookup handle).isSome then refuse
      parseDirectives versioned ((handle, lead) :: handles) steps
    | some .otherDirective =>
      skip
      parseDirectives versioned handles steps
    | _ => return handles

/-- Whether a token is a directive. -/
def Token.isDirective : Token → Bool
  | versionDirective _ | tagDirective _ _ | otherDirective => true
  | _ => false

/-- Reads a node of a depth that the tokens allow. -/
def parseRoot : Parser NodeId := do parseNode ((← get).tokens.length + 1) .block

/-- Reads a document behind its mark. -/
def parseMarked : Parser NodeId := do
  if ← isNext [.documentStart] then skip else refuse
  let next ← peek?
  if next.all fun t => t.isDirective || t == .documentStart || t == .documentEnd then absent
  else parseRoot

/-- Reads the end of the only document. In the old version its mark can be repeated. -/
def parseEnd : Parser Unit := do
  if ← isNext [.documentEnd] then
    skip
    if (← get).version.isOld then
      modify fun p => { p with tokens := p.tokens.dropWhile (· == .documentEnd) }
  if (← peek?).isSome then refuse

/-- Reads the only document, if there is one. Directives need the mark of the document behind
them. -/
def parseDocument : Parser (Option Document) := do
  let some first ← peek? | return none
  let root ←
    if first.isDirective || first == .documentStart then
      let handles ← parseDirectives false [] ((← get).tokens.length + 1)
      modify fun p => { p with handles := handles ++ defaultHandles }
      parseMarked
    else parseRoot
  parseEnd
  let p ← get
  return some ⟨p.version, p.nodes, root⟩

/-- The document that a text holds; there can be none, but not more than one. -/
def Document.ofText? (s : Text) : Except Fault (Option Document) :=
  (parseDocument ⟨Token.ofText s, .current, defaultHandles, [], #[]⟩).map Prod.fst

end Offside.Yaml
