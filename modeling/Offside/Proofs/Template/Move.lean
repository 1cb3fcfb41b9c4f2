import Offside.Proofs.Template.Bare
import Offside.Proofs.Template.Condition
import Offside.Proofs.Template.Element
import Offside.Proofs.Template.Header

/-! What was read at some places, moved to others. A reader looks at the characters of its line
only, so moving its mark moves all that it gives: the spans in the tree and the spans of its
reports. -/
namespace Offside

open Text

/-- Other places for the lines of a text. Within a line nothing moves. -/
structure Relocation where
  mark : Mark → Mark
  span : Span → Span
  mark_right : ∀ m n, mark (m.right n) = (mark m).right n
  span_mark : ∀ m n, span (m.span n) = (mark m).span n

/-- Every line stays where it is. -/
def Relocation.refl : Relocation := ⟨id, id, fun _ _ => rfl, fun _ _ => rfl⟩

section

variable (r : Relocation)

/-- The report at its new place. -/
def Diagnostic.move (d : Diagnostic) : Diagnostic := { d with span := d.span.map r.span }

theorem Mark.move_diagnose (m : Mark) (p : Problem) (n : Nat) :
    (m.diagnose p n).move r = (r.mark m).diagnose p n := by
  simp [Mark.diagnose, Diagnostic.ofProblem, Diagnostic.move, r.span_mark]

/-- A result of a reader at its new place. -/
def moveResult {α : Type} (f : α → α) : Except Diagnostic α → Except Diagnostic α
  | .ok a => .ok (f a)
  | .error d => .error (d.move r)

/-- The part at its new place. -/
def Part.move : Part → Part
  | .literal v => .literal v
  | .expression v span => .expression v (span.map r.span)

namespace Node

mutual

/-- The node, and what is inside it, at its new place. -/
def move : Node → Node
  | .element name classes children span =>
    .element name classes (moveList children) (span.map r.span)
  | .text parts placement span => .text (parts.map (Part.move r)) placement (span.map r.span)
  | .expression value span => .expression value (span.map r.span)
  | .conditional branches span => .conditional (moveBranches branches) (span.map r.span)
  | .loop variableName iterable body span =>
    .loop variableName iterable (moveList body) (span.map r.span)
  | .foreign label => .foreign label

/-- The nodes at their new places. -/
def moveList : List Node → List Node
  | [] => []
  | n :: ns => n.move :: moveList ns

/-- The branches at their new places. -/
def moveBranches : List (Branch Node) → List (Branch Node)
  | [] => []
  | b :: bs => moveBranch b :: moveBranches bs

/-- The branch, and what is inside it, at its new place. -/
def moveBranch : Branch Node → Branch Node
  | ⟨test, body, span⟩ => ⟨test, moveList body, span.map r.span⟩

end

end Node

/-- The field at its new place. -/
def PropsField.move (f : PropsField) : PropsField := { f with span := f.span.map r.span }

/-- The alias at its new place. -/
def ClassAlias.move (a : ClassAlias) : ClassAlias :=
  { a with span := a.span.map r.span, nameSpan := a.nameSpan.map r.span }

/-- The block and its fields at their new places. -/
def PropsBlock.move (p : PropsBlock) : PropsBlock :=
  ⟨p.fields.map (PropsField.move r), p.span.map r.span⟩

/-- The block and its aliases at their new places. -/
def AliasBlock.move (b : AliasBlock) : AliasBlock :=
  ⟨b.aliases.map (ClassAlias.move r), b.span.map r.span⟩

/-- The template with everything in it at its new place. -/
def Template.move (t : Template) : Template :=
  { t with
    idSpan := t.idSpan.map r.span
    props := t.props.map (PropsBlock.move r)
    aliases := t.aliases.map (AliasBlock.move r)
    children := Node.moveList r t.children
    span := t.span.map r.span }

/-- The tail of an element with its pipe at its new place. -/
def Selector.Tail.move (t : Selector.Tail) : Selector.Tail :=
  { t with pipe := t.pipe.map fun p => (r.mark p.1, p.2) }

/-- The head of a branch at its new place. -/
def BranchHead.move (h : BranchHead) : BranchHead :=
  ⟨h.test, h.inline.map fun p => (r.mark p.1, p.2), r.span h.span⟩

/-! ## Readers -/

namespace Pipe

theorem move_consChar (c : Char) (ps : List Part) :
    (Part.consChar c ps).map (Part.move r) = Part.consChar c (ps.map (Part.move r)) := by
  rcases ps with _ | ⟨p, ps⟩
  · rfl
  · cases p <;> rfl

theorem move_consText (v : Text) (ps : List Part) :
    (Part.consText v ps).map (Part.move r) = Part.consText v (ps.map (Part.move r)) := by
  induction v with
  | nil => rfl
  | cons c v ih => exact (move_consChar r c _).trans (congrArg (Part.consChar c) ih)

/-- Reading parts at a moved mark gives the moved parts. -/
theorem readParts_mark (m : Mark) (opened : Option (Mark × Text)) (s : Text) :
    readParts (r.mark m) (opened.map fun o => (r.mark o.1, o.2)) s =
      ((readParts m opened s).1.map (Part.move r),
        (readParts m opened s).2.map (Diagnostic.move r)) := by
  fun_induction readParts m opened s with
  | case1 m s ps ds hs ih =>
    rw [r.mark_right, hs] at ih
    simp only [Option.map_none] at ih
    simp only [Option.map_none, readParts, ih, List.map_cons, Mark.move_diagnose]
  | case2 m s ps ds hs o inner length htrim ih =>
    rw [r.mark_right, hs] at ih
    simp only [Option.map_none] at ih
    simp only [Option.map_some, readParts, ih, htrim, List.map_cons, Mark.move_diagnose]
    rfl
  | case3 m s ps ds hs o inner length htrim ih =>
    rw [r.mark_right, hs] at ih
    simp only [Option.map_none] at ih
    simp only [Option.map_some, readParts, ih, List.map_cons, Part.move, r.span_mark]
    rfl
  | case4 m s ih =>
    rw [r.mark_right] at ih
    exact ih
  | case5 m s o inner ih =>
    rw [r.mark_right] at ih
    exact ih
  | case6 m c s hc ho ps ds hs ih =>
    rw [r.mark_right, hs] at ih
    rw [Option.map_none] at ih ⊢
    rw [readParts, ih]
    · simp only [move_consChar]
    · exact hc
    · exact ho
  | case7 m c s hc ho o inner ih =>
    rw [r.mark_right] at ih
    rw [Option.map_some, readParts]
    · exact ih
    · exact hc
    · exact ho
  | case8 m => rfl
  | case9 m o inner =>
    simp only [Option.map_some, readParts, move_consText, List.map_cons, List.map_nil,
      Mark.move_diagnose]

theorem read_mark (m : Mark) (placement : Placement) (s : Text) :
    read (r.mark m) placement s =
      ((read m placement s).1.move r, (read m placement s).2.map (Diagnostic.move r)) := by
  have hparts : ∀ k rest, readParts ((r.mark m).right k) none rest =
      ((readParts (m.right k) none rest).1.map (Part.move r),
        (readParts (m.right k) none rest).2.map (Diagnostic.move r)) := by
    intro k rest
    rw [← r.mark_right]
    exact readParts_mark r (m.right k) none rest
  simp only [read]
  split <;> simp only [hparts, Node.move, Option.map_some, r.span_mark]

end Pipe

/-- Reading what follows a name at a moved mark gives it moved. -/
theorem Selector.readTail_mark (m : Mark) (place : Place) (s : Text) :
    readTail (r.mark m) place s =
      moveResult r (fun p => (p.1, p.2.move r)) (readTail m place s) := by
  fun_induction readTail m place s with
  | case1 m place h => rw [readTail, if_pos h, moveResult, Mark.move_diagnose]
  | case2 m place h =>
    rw [readTail, if_neg h]
    rfl
  | case3 m place c s h ih =>
    rw [r.mark_right] at ih
    rw [readTail, if_pos h, ih]
    cases readTail (m.right 1) .inside s <;> rfl
  | case4 m place c s h hstart =>
    rw [readTail, if_neg h, if_pos hstart, moveResult, Mark.move_diagnose]
  | case5 m place c s h hstart hblank ih =>
    rw [r.mark_right] at ih
    rw [readTail, if_neg h, if_neg hstart, if_pos hblank, ih]
    cases readTail (m.right 1) .between s <;> rfl
  | case6 m place c s h hstart hblank hpipe =>
    rw [readTail, if_neg h, if_neg hstart, if_neg hblank, if_pos hpipe]
    rfl
  | case7 m place c s h hstart hblank hpipe hdot ih =>
    rw [r.mark_right] at ih
    rw [readTail, if_neg h, if_neg hstart, if_neg hblank, if_neg hpipe, if_pos hdot, ih]
    cases readTail (m.right 1) .start s <;> rfl
  | case8 m place c s h hstart hblank hpipe hdot =>
    rw [readTail, if_neg h, if_neg hstart, if_neg hblank, if_neg hpipe, if_neg hdot, moveResult,
      Mark.move_diagnose]

namespace Node

/-- An element, and what its pipe has reported, at their new places. -/
def moveReading (p : Node × List Diagnostic) : Node × List Diagnostic :=
  (p.1.move r, p.2.map (Diagnostic.move r))

theorem readExpression_mark (m : Mark) (line : Text) :
    readExpression (r.mark m) line = moveResult r (move r) (readExpression m line) := by
  simp only [readExpression.eq_def]
  split
  · simp only [moveResult, Mark.move_diagnose]
  · split
    · simp only [moveResult, Mark.move_diagnose, r.mark_right]
    · split
      · simp only [moveResult, Mark.move_diagnose]
      · simp only [moveResult, move, Option.map_some, r.span_mark]

/-- Reading an element at a moved mark gives it moved. -/
theorem readElement_mark (m : Mark) (line : Text) :
    readElement (r.mark m) line = moveResult r (moveReading r) (readElement m line) := by
  cases line with
  | nil => simp only [readElement.eq_def, moveResult, Mark.move_diagnose]
  | cons c s =>
    rw [readElement, readElement]
    split
    · simp only [← r.mark_right, Selector.readTail_mark]
      cases Selector.readTail (m.right ((c :: s).takeWhile Selector.isNameChar).length) .between
        ((c :: s).drop ((c :: s).takeWhile Selector.isNameChar).length) with
      | error d => rfl
      | ok p =>
        obtain ⟨token, classes, pipe⟩ := p
        cases pipe with
        | none =>
          simp [bind, Except.bind, moveResult, moveReading, Selector.Tail.move, move, moveList,
            r.span_mark]
        | some p =>
          simp [bind, Except.bind, moveResult, moveReading, Selector.Tail.move, move, moveList,
            r.span_mark, Pipe.read_mark]
    · rw [moveResult, Mark.move_diagnose]

/-- Reading the line of a branch at a moved mark gives it moved. -/
theorem readInline_mark (m : Mark) (line : Text) : readInline (r.mark m) line =
    ((readInline m line).1.map (move r), (readInline m line).2.map (Diagnostic.move r)) := by
  have hreading : ∀ x, reading (moveResult r (moveReading r) x) =
      ((reading x).1.map (move r), (reading x).2.map (Diagnostic.move r)) := by
    rintro (d | p) <;> rfl
  simp only [readInline.eq_def]
  split
  · simp only [Pipe.read_mark, Option.map_some]
  · rw [readExpression_mark, ← hreading]
    congr 1
    cases readExpression m _ <;> rfl
  · simp only [Option.map_none, List.map_cons, List.map_nil, Mark.move_diagnose]
  · rw [readElement_mark, hreading]

end Node

theorem BranchHead.inlineBody_mark (m : Mark) (rest : Text) :
    inlineBody (r.mark m) rest = (inlineBody m rest).map fun p => (r.mark p.1, p.2) := by
  simp only [inlineBody.eq_def]
  split
  · rfl
  · simp only [Option.map_some, r.mark_right]

theorem BranchHead.readTested_mark (k : TestKeyword) (m : Mark) (line : Text) :
    readTested k (r.mark m) line = moveResult r (move r) (readTested k m line) := by
  simp only [readTested.eq_def]
  split
  · simp only [moveResult, Mark.move_diagnose]
  · split
    · simp only [moveResult, Mark.move_diagnose]
    · simp only [moveResult, move, r.span_mark, ← inlineBody_mark, r.mark_right]

theorem BranchHead.readElse_mark (m : Mark) (line : Text) :
    readElse (r.mark m) line = (readElse m line).move r := by
  simp only [readElse, move, r.span_mark, ← inlineBody_mark, r.mark_right]

theorem TemplateId.read_mark (m : Mark) (line : Text) :
    read (r.mark m) line = moveResult r (fun p => (r.mark p.1, p.2)) (read m line) := by
  simp only [read]
  split
  · simp only [moveResult, r.mark_right]
  · simp only [moveResult, Mark.move_diagnose]

theorem PropsField.read_mark (m : Mark) (line : Text) :
    read (r.mark m) line = moveResult r (move r) (read m line) := by
  simp only [read.eq_def]
  split
  · simp only [moveResult, Mark.move_diagnose]
  · simp only [moveResult, Mark.move_diagnose]
  · simp only [moveResult, move, Option.map_some, r.span_mark]

theorem ClassAlias.read_mark (m : Mark) (line : Text) :
    read (r.mark m) line = moveResult r (move r) (read m line) := by
  simp only [read.eq_def]
  split
  · simp only [moveResult, Mark.move_diagnose]
  · split
    · simp only [moveResult, Mark.move_diagnose]
    · simp only [moveResult, move, Option.map_some, r.span_mark]

namespace Node

theorem moveList_eq_map (ns : List Node) : moveList r ns = ns.map (move r) := by
  induction ns with
  | nil => rfl
  | cons n ns ih => rw [moveList, ih, List.map_cons]

theorem moveBranches_eq_map (bs : List (Branch Node)) :
    moveBranches r bs = bs.map (moveBranch r) := by
  induction bs with
  | nil => rfl
  | cons b bs ih => rw [moveBranches, ih, List.map_cons]

end Node

/-! ## What does not depend on places -/

namespace Node

mutual

theorem bare_move : ∀ n : Node, (n.move r).bare = n.bare
  | .element _ _ ns _ => by rw [move, bare, bare, bareList_move ns]
  | .text parts _ _ => by
    have hparts : (parts.map (Part.move r)).map Part.bare = parts.map Part.bare := by
      rw [List.map_map]
      refine List.map_congr_left fun p _ => ?_
      cases p <;> rfl
    rw [move, bare, bare, hparts]
  | .expression _ _ => rfl
  | .conditional bs _ => by rw [move, bare, bare, bareBranches_move bs]
  | .loop _ _ ns _ => by rw [move, bare, bare, bareList_move ns]
  | .foreign _ => rfl

theorem bareList_move : ∀ ns : List Node, bareList (moveList r ns) = bareList ns
  | [] => rfl
  | n :: ns => by rw [moveList, bareList, bareList, bare_move n, bareList_move ns]

theorem bareBranches_move : ∀ bs : List (Branch Node),
    bareBranches (moveBranches r bs) = bareBranches bs
  | [] => rfl
  | b :: bs => by
    rw [moveBranches, bareBranches, bareBranches, bareBranch_move b, bareBranches_move bs]

theorem bareBranch_move : ∀ b : Branch Node, bareBranch (moveBranch r b) = bareBranch b
  | ⟨_, ns, _⟩ => by rw [moveBranch, bareBranch, bareBranch, bareList_move ns]

end

theorem isEmpty_moveList (ns : List Node) : (moveList r ns).isEmpty = ns.isEmpty := by
  cases ns <;> rfl

mutual

theorem emptyBranches_move : ∀ n : Node,
    (n.move r).emptyBranches = n.emptyBranches.map (Option.map r.span)
  | .element _ _ ns _ => emptyBranchesIn_move ns
  | .text .. => rfl
  | .expression .. => rfl
  | .conditional bs _ => emptyBranchesOf_move bs
  | .loop _ _ ns _ => emptyBranchesIn_move ns
  | .foreign _ => rfl

theorem emptyBranchesIn_move : ∀ ns : List Node,
    emptyBranchesIn (moveList r ns) = (emptyBranchesIn ns).map (Option.map r.span)
  | [] => rfl
  | n :: ns => by
    rw [moveList, emptyBranchesIn, emptyBranchesIn, emptyBranches_move n, emptyBranchesIn_move ns,
      List.map_append]

theorem emptyBranchesOf_move : ∀ bs : List (Branch Node),
    emptyBranchesOf (moveBranches r bs) = (emptyBranchesOf bs).map (Option.map r.span)
  | [] => rfl
  | b :: bs => by
    rw [moveBranches, emptyBranchesOf, emptyBranchesOf, emptyBranchesAt_move b,
      emptyBranchesOf_move bs, List.map_append]

theorem emptyBranchesAt_move : ∀ b : Branch Node,
    emptyBranchesAt (moveBranch r b) = (emptyBranchesAt b).map (Option.map r.span)
  | ⟨_, ns, _⟩ => by
    rw [moveBranch, emptyBranchesAt, emptyBranchesAt, isEmpty_moveList, emptyBranchesIn_move ns]
    split <;> rfl

end

mutual

theorem emptyLoops_move : ∀ n : Node,
    (n.move r).emptyLoops = n.emptyLoops.map (Option.map r.span)
  | .element _ _ ns _ => emptyLoopsIn_move ns
  | .text .. => rfl
  | .expression .. => rfl
  | .conditional bs _ => emptyLoopsOf_move bs
  | .loop _ _ ns _ => by
    rw [move, emptyLoops, emptyLoops, isEmpty_moveList, emptyLoopsIn_move ns]
    split <;> rfl
  | .foreign _ => rfl

theorem emptyLoopsIn_move : ∀ ns : List Node,
    emptyLoopsIn (moveList r ns) = (emptyLoopsIn ns).map (Option.map r.span)
  | [] => rfl
  | n :: ns => by
    rw [moveList, emptyLoopsIn, emptyLoopsIn, emptyLoops_move n, emptyLoopsIn_move ns,
      List.map_append]

theorem emptyLoopsOf_move : ∀ bs : List (Branch Node),
    emptyLoopsOf (moveBranches r bs) = (emptyLoopsOf bs).map (Option.map r.span)
  | [] => rfl
  | b :: bs => by
    rw [moveBranches, emptyLoopsOf, emptyLoopsOf, emptyLoopsAt_move b, emptyLoopsOf_move bs,
      List.map_append]

theorem emptyLoopsAt_move : ∀ b : Branch Node,
    emptyLoopsAt (moveBranch r b) = (emptyLoopsAt b).map (Option.map r.span)
  | ⟨_, ns, _⟩ => emptyLoopsIn_move ns

end

end Node

namespace Template

/-- Moving spans leaves the template without spans as it is. -/
theorem bare_move (t : Template) : (t.move r).bare = t.bare := by
  have hp : (t.props.map (PropsBlock.move r)).map PropsBlock.bare =
      t.props.map PropsBlock.bare := by
    rw [Option.map_map]
    congr 1
    funext p
    simp only [Function.comp_apply, PropsBlock.bare, PropsBlock.move, List.map_map]
    rfl
  have ha : (t.aliases.map (AliasBlock.move r)).map AliasBlock.bare =
      t.aliases.map AliasBlock.bare := by
    rw [Option.map_map]
    congr 1
    funext b
    simp only [Function.comp_apply, AliasBlock.bare, AliasBlock.move, List.map_map]
    rfl
  simp only [bare, move, hp, ha, Node.bareList_move]

theorem emptyBodies_move (t : Template) :
    (t.move r).emptyBodies = t.emptyBodies.map (Diagnostic.move r) := by
  have hmove : ∀ (p : Problem) (spans : List (Option Span)),
      (spans.map (Option.map r.span)).map (Diagnostic.ofProblem p) =
        (spans.map (Diagnostic.ofProblem p)).map (Diagnostic.move r) := by
    intro p spans
    rw [List.map_map, List.map_map]
    rfl
  have hchildren : (t.move r).children = Node.moveList r t.children := rfl
  rw [emptyBodies, emptyBodies, hchildren, Node.emptyBranchesIn_move, Node.emptyLoopsIn_move,
    hmove, hmove, List.map_append]

end Template

end

/-! ## Nothing moves -/

theorem Diagnostic.move_refl (d : Diagnostic) : d.move .refl = d := by
  obtain ⟨severity, message, span, code, file⟩ := d
  cases span <;> rfl

theorem Part.map_move_refl (ps : List Part) : ps.map (Part.move .refl) = ps := by
  refine List.map_id'' ?_ ps
  rintro (v | ⟨v, _ | span⟩) <;> rfl

theorem PropsField.move_refl (f : PropsField) : f.move .refl = f := by
  obtain ⟨name, optional, typeText, span⟩ := f
  cases span <;> rfl

theorem ClassAlias.move_refl (a : ClassAlias) : a.move .refl = a := by
  obtain ⟨name, classes, span, nameSpan⟩ := a
  cases span <;> cases nameSpan <;> rfl

namespace Node

mutual

theorem move_refl : ∀ n : Node, n.move .refl = n
  | .element _ _ ns span => by rw [move, moveList_refl ns]; cases span <;> rfl
  | .text ps _ span => by rw [move, Part.map_move_refl ps]; cases span <;> rfl
  | .expression _ span => by cases span <;> rfl
  | .conditional bs span => by rw [move, moveBranches_refl bs]; cases span <;> rfl
  | .loop _ _ ns span => by rw [move, moveList_refl ns]; cases span <;> rfl
  | .foreign _ => rfl

theorem moveList_refl : ∀ ns : List Node, moveList .refl ns = ns
  | [] => rfl
  | n :: ns => by rw [moveList, move_refl n, moveList_refl ns]

theorem moveBranches_refl : ∀ bs : List (Branch Node), moveBranches .refl bs = bs
  | [] => rfl
  | b :: bs => by rw [moveBranches, moveBranch_refl b, moveBranches_refl bs]

theorem moveBranch_refl : ∀ b : Branch Node, moveBranch .refl b = b
  | ⟨_, ns, span⟩ => by rw [moveBranch, moveList_refl ns]; cases span <;> rfl

end

end Node

theorem Template.move_refl (t : Template) : t.move .refl = t := by
  have hid : ∀ span : Option Span, span.map Relocation.refl.span = span := fun _ =>
    Option.map_id_apply
  have hfields : ∀ fs : List PropsField, fs.map (PropsField.move .refl) = fs :=
    List.map_id'' PropsField.move_refl
  have haliases : ∀ as : List ClassAlias, as.map (ClassAlias.move .refl) = as :=
    List.map_id'' ClassAlias.move_refl
  obtain ⟨rawId, id, idSpan, props, aliases, children, span⟩ := t
  cases props <;> cases aliases <;>
    simp [move, PropsBlock.move, AliasBlock.move, hid, hfields, haliases, Node.moveList_refl]

end Offside
