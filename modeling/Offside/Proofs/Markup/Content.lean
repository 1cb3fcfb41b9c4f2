import Offside.Ir.ToMarkup
import Offside.Markup.Cursor
import Offside.Markup.Selection
import Offside.Proofs.Ir.Skeleton

/-! Markup without expressions as a tree: what it is written as, the nodes that a reader of markup
makes of it, and its elements. Pieces of markup can be put in a row and into elements, whatever
characters the texts in them hold. -/
namespace Offside.Markup

open Text

/-- The name of a tag, and the classes of its `className`. -/
structure Label where
  name : Text
  classes : List Text

namespace Label

/-- The tag can be named so, and the classes are words without references. -/
structure Valid (l : Label) : Prop where
  name : IsName l.name
  classes : ∀ t ∈ l.classes, Ir.IsPlainClass t

def write (l : Label) : Text := l.name ++ Ir.writeAttributes l.classes []

def className (l : Label) : Text :=
  ['c', 'l', 'a', 's', 's', 'N', 'a', 'm', 'e', '='] ++ Text.quote ([' '].intercalate l.classes)

/-- The nodes of a tag whose name starts at a place. -/
def nodes (l : Label) (p : Nat) : List Node :=
  let start := p + l.name.length + 1
  let stop := start + l.className.length
  .mk .identifier p (p + l.name.length) [] ::
    if l.classes.isEmpty then []
    else [.mk .tagAttribute start stop
      [.mk .propertyName start (start + 9) [], .mk .string (start + 10) stop []]]

theorem write_of_nil {l : Label} (h : l.classes = []) : l.write = l.name := by
  simp [write, Ir.writeAttributes, h]

theorem write_of_ne_nil {l : Label} (h : l.classes ≠ []) :
    l.write = l.name ++ ' ' :: l.className := by
  simp [write, Ir.writeAttributes, className, h]

end Label

/-- A character that stands for itself between tags. -/
def isTextChar (c : Char) : Bool := !(c == '<' || c == '>' || c == '{' || c == '}' || c == '&')

/-- Markup up to its end: what comes first, and what comes next to it. An element without a label
is a fragment. -/
inductive Content
  | nil
  | text (run : Text) (next : Content)
  /-- A quoted text between braces. -/
  | quoted (value : Text) (next : Content)
  | closed (label : Label) (next : Content)
  | element (label : Option Label) (inner next : Content)

namespace Content

/-- What stands behind the angle bracket of an opening tag. -/
def opening (l : Option Label) : Text := l.elim [] Label.write

/-- What stands behind the slash of a closing tag. -/
def closing (l : Option Label) : Text := l.elim [] Label.name

def write : Content → Text
  | nil => []
  | text run next => run ++ next.write
  | quoted value next => Ir.quotedText value ++ next.write
  | closed l next => '<' :: l.write ++ ' ' :: '/' :: '>' :: next.write
  | element l inner next =>
    '<' :: opening l ++ '>' :: inner.write ++ '<' :: '/' :: closing l ++ '>' :: next.write

/-- The nodes of content that starts at a place. -/
def nodes : Content → Nat → List Node
  | nil, _ => []
  | text run next, p =>
    (if showsText false run then [.mk .text p (p + run.length) []] else []) ++
      next.nodes (p + run.length)
  | quoted value next, p =>
    let stop := p + 1 + (Text.quote value).length
    .mk .expression p (stop + 1) [.mk .string (p + 1) stop []] :: next.nodes (stop + 1)
  | closed l next, p =>
    let stop := p + 1 + l.write.length + 3
    .mk .selfClosing p stop (l.nodes (p + 1)) :: next.nodes stop
  | element l inner next, p =>
    let inside := p + 1 + (opening l).length + 1
    let behind := inside + inner.write.length
    let stop := behind + 2 + (closing l).length + 1
    .mk .element p stop
      (.mk .opening p inside (l.elim [] (·.nodes (p + 1))) :: inner.nodes inside ++
        [.mk .closing behind stop
          (l.elim [] fun l => [.mk .identifier (behind + 2) (behind + 2 + l.name.length) []])]) ::
      next.nodes stop

def skeleton : Content → List Ir.Skeleton
  | nil => []
  | text _ next | quoted _ next => next.skeleton
  | closed l next => .mk l.name l.classes [] :: next.skeleton
  | element none inner next => inner.skeleton ++ next.skeleton
  | element (some l) inner next => .mk l.name l.classes inner.skeleton :: next.skeleton

def startsText : Content → Bool
  | text _ _ => true
  | _ => false

/-- Runs of text are as long as can be and hold nothing but text, and tags can be named so. -/
def Valid : Content → Prop
  | nil => True
  | text run next =>
    run ≠ [] ∧ (∀ c ∈ run, isTextChar c = true) ∧ next.startsText = false ∧ next.Valid
  | quoted _ next => next.Valid
  | closed l next => l.Valid ∧ next.Valid
  | element l inner next => (∀ k ∈ l, k.Valid) ∧ inner.Valid ∧ next.Valid

/-! ## Content in a row -/

variable {run s : Text} {j k : Content}

/-- Puts text in front of content, as one run with the text that it starts with. -/
def consText (run : Text) : Content → Content
  | text more next => text (run ++ more) next
  | k => if run.isEmpty then k else text run k

def append : Content → Content → Content
  | nil, k => k
  | text run next, k => consText run (next.append k)
  | quoted value next, k => quoted value (next.append k)
  | closed l next, k => closed l (next.append k)
  | element l inner next, k => element l inner (next.append k)

theorem consText_of_not_startsText (hk : k.startsText = false) (hrun : run ≠ []) :
    consText run k = text run k := by
  cases k with
  | text more next => cases hk
  | nil | quoted _ _ | closed _ _ | element _ _ _ => simp [consText, hrun]

theorem write_consText (run : Text) (k : Content) : (consText run k).write = run ++ k.write := by
  cases run <;> cases k <;> simp [consText, write]

theorem skeleton_consText (run : Text) (k : Content) : (consText run k).skeleton = k.skeleton := by
  cases run <;> cases k <;> rfl

theorem valid_consText (hrun : ∀ c ∈ run, isTextChar c = true) (hk : k.Valid) :
    (consText run k).Valid := by
  cases k with
  | text more next =>
    obtain ⟨hne, hmore, hnext, hvalid⟩ := hk
    exact ⟨by simp [hne], List.forall_mem_append.mpr ⟨hrun, hmore⟩, hnext, hvalid⟩
  | nil | quoted _ _ | closed _ _ | element _ _ _ =>
    by_cases hne : run = []
    · simpa [consText, hne] using hk
    · rw [consText_of_not_startsText rfl hne]
      exact ⟨hne, hrun, rfl, hk⟩

theorem write_append (j k : Content) : (j.append k).write = j.write ++ k.write := by
  induction j with
  | nil => rfl
  | text run next ih => simp [append, write, write_consText, ih]
  | quoted value next ih => simp [append, write, ih]
  | closed l next ih => simp [append, write, ih]
  | element l inner next _ ih => simp [append, write, ih]

theorem skeleton_append (j k : Content) : (j.append k).skeleton = j.skeleton ++ k.skeleton := by
  induction j with
  | nil => rfl
  | text run next ih => rw [append, skeleton_consText, ih, skeleton]
  | quoted value next ih => rw [append, skeleton, ih, skeleton]
  | closed l next ih => rw [append, skeleton, ih, skeleton, List.cons_append]
  | element l inner next _ ih => cases l <;> simp [append, skeleton, ih]

theorem valid_append (hj : j.Valid) (hk : k.Valid) : (j.append k).Valid := by
  induction j with
  | nil => exact hk
  | text run next ih => exact valid_consText hj.2.1 (ih hj.2.2.2)
  | quoted value next ih => exact ih hj
  | closed l next ih => exact ⟨hj.1, ih hj.2⟩
  | element l inner next _ ih => exact ⟨hj.1, hj.2.1, ih hj.2.2⟩

end Content

/-! ## Texts that spell elements -/

variable {s t : Text} {a b : List Ir.Skeleton} {l : Label}

/-- The text is markup without expressions, and its elements are these. -/
def Spells (s : Text) (elements : List Ir.Skeleton) : Prop :=
  ∃ k : Content, k.Valid ∧ k.write = s ∧ k.skeleton = elements

theorem Spells.append (hs : Spells s a) (ht : Spells t b) : Spells (s ++ t) (a ++ b) := by
  obtain ⟨j, hj, rfl, rfl⟩ := hs
  obtain ⟨k, hk, rfl, rfl⟩ := ht
  exact ⟨j.append k, Content.valid_append hj hk, Content.write_append j k,
    Content.skeleton_append j k⟩

theorem spells_nil : Spells [] [] := ⟨.nil, trivial, rfl, rfl⟩

/-- Characters without a meaning of their own add no element. -/
theorem spells_text (hs : ∀ c ∈ s, isTextChar c = true) : Spells s [] := by
  by_cases hne : s = []
  · exact hne ▸ spells_nil
  · exact ⟨.text s .nil, ⟨hne, hs, rfl, trivial⟩, List.append_nil s, rfl⟩

/-- Between quotes and braces no character has a meaning of its own. -/
theorem spells_quotedText (value : Text) : Spells (Ir.quotedText value) [] :=
  ⟨.quoted value .nil, trivial, List.append_nil _, rfl⟩

theorem spells_closed (hl : l.Valid) :
    Spells ('<' :: l.write ++ [' ', '/', '>']) [.mk l.name l.classes []] :=
  ⟨.closed l .nil, ⟨hl, trivial⟩, rfl, rfl⟩

theorem Spells.element (hs : Spells s a) (hl : l.Valid) :
    Spells ('<' :: l.write ++ ['>'] ++ s ++ ('<' :: '/' :: l.name ++ ['>']))
      [.mk l.name l.classes a] := by
  obtain ⟨k, hk, rfl, rfl⟩ := hs
  refine ⟨.element (some l) k .nil, ⟨?_, hk, trivial⟩, by simp [Content.write, Content.opening,
    Content.closing], rfl⟩
  intro l' hl'
  exact Option.some.inj hl' ▸ hl

theorem Spells.fragment (hs : Spells s a) :
    Spells (['<', '>'] ++ s ++ ['<', '/', '>']) a := by
  obtain ⟨k, hk, rfl, rfl⟩ := hs
  exact ⟨.element none k .nil, ⟨by simp, hk, trivial⟩, by simp [Content.write, Content.opening,
    Content.closing], List.append_nil _⟩

end Offside.Markup
