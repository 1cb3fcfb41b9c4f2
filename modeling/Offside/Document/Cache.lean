import Offside.Document.Uri
import Offside.Template.Reader

/-!
What has been read of the open documents. A document is read again only when its version changes. An
index tells, for each template id, the documents that declare it, in the order in which they were
read; more than one document can declare an id.
-/
namespace Offside.Document

/-- That a document declares a template id. -/
structure IdEntry where
  id : Text
  uri : Text
  rawId : Option Text
  idSpan : Option Span
  fromFileName : Bool
deriving DecidableEq, Repr

/-- The entries under each id. -/
abbrev IdIndex := List (Text × List IdEntry)

namespace IdIndex

def entries (x : IdIndex) (id : Text) : List IdEntry := (x.lookup id).getD []

def listing (x : IdIndex) : List IdEntry := x.flatMap Prod.snd

/-- The index without the entries of a document. An id that no document declares any more is left
out. -/
def without (uri : Text) : IdIndex → IdIndex
  | [] => []
  | (id, es) :: x =>
    match es.filter (·.uri != uri) with
    | [] => without uri x
    | e :: kept => (id, e :: kept) :: without uri x

/-- The index with an entry put behind the others under its id. -/
def file (e : IdEntry) : IdIndex → IdIndex
  | [] => [(e.id, [e])]
  | (id, es) :: x => if id == e.id then (id, es ++ [e]) :: x else (id, es) :: file e x

end IdIndex

/-- A document as it was read last. Readings are numbered, so that two of the same text can be told
apart. -/
structure Stored where
  uri : Text
  version : Int
  serial : Nat
  reading : Reading

/-- The documents that have been read, and where the template ids are. -/
structure Cache where
  documents : List Stored
  index : IdIndex
  /-- How many documents have been read. -/
  readings : Nat

namespace Cache

def empty : Cache := ⟨[], [], 0⟩

def find? (c : Cache) (uri : Text) : Option Stored := c.documents.find? (·.uri == uri)

def contains (c : Cache) (uri : Text) : Bool := (c.find? uri).isSome

def size (c : Cache) : Nat := c.documents.length

def entries (c : Cache) (id : Text) : List IdEntry := c.index.entries id

def ids (c : Cache) : List Text := c.index.map Prod.fst

/-- The index entry for what was read at an address. -/
def idEntry (uri : Text) (r : Reading) : Except AddressError IdEntry :=
  match r.template.id with
  | some (x :: id) => .ok ⟨x :: id, uri, r.template.rawId, r.template.idSpan, false⟩
  | _ => (Uri.templateId uri).map fun id => ⟨id, uri, none, none, true⟩

def invalidate (c : Cache) (uri : Text) : Cache :=
  { c with
    documents := c.documents.filter (·.uri != uri)
    index := c.index.without uri }

def clear (c : Cache) : Cache := { c with documents := [], index := [] }

/-- The cache with a text read anew. -/
def read (c : Cache) (uri : Text) (version : Int) (text : Text) : Cache × Stored :=
  let stored : Stored := ⟨uri, version, c.readings, Template.read text⟩
  let rest := c.invalidate uri
  ({ rest with documents := rest.documents ++ [stored], readings := c.readings + 1 }, stored)

/-- The document at an address, read if it is not there in this version. Where no id can be made
out, the document stays in the cache without one. -/
def get (c : Cache) (uri : Text) (version : Int) (text : Text) :
    Cache × Except AddressError Stored :=
  match (c.find? uri).filter (·.version == version) with
  | some stored => (c, .ok stored)
  | none =>
    let (c', stored) := c.read uri version text
    match idEntry uri stored.reading with
    | .ok entry => ({ c' with index := c'.index.file entry }, .ok stored)
    | .error e => (c', .error e)

end Cache

end Offside.Document
