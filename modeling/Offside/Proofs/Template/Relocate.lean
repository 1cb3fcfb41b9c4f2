import Offside.Proofs.Template.Margin
import Offside.Proofs.Template.Move
import Offside.Proofs.Template.Outline
import Offside.Proofs.Template.Step

/-! The same run at other places. Each line takes a state at its new places to the state at its new
places, whatever was reported before. -/
namespace Offside

open Text

section

variable (r : Relocation)

theorem map_onLast {α β : Type} {f : α → α} {g : β → β} {h : α → β} (hfg : ∀ a, h (f a) = g (h a))
    (as : List α) : (onLast f as).map h = onLast g (as.map h) := by
  rcases List.eq_nil_or_concat' as with rfl | ⟨front, a, rfl⟩
  · rfl
  · simp [hfg]

namespace Outline

theorem move_mapBody {f g : List Node → List Node}
    (h : ∀ ns, Node.moveList r (f ns) = g (Node.moveList r ns)) (n : Node) :
    (n.mapBody f).move r = (n.move r).mapBody g := by
  cases n with
  | conditional bs span =>
    simp only [Node.mapBody, Node.move, Node.moveBranches_eq_map]
    rw [map_onLast (g := Branch.mapBody g)]
    rintro ⟨test, body, span⟩
    simp only [Branch.mapBody, Node.moveBranch, h]
  | element => simp only [Node.mapBody, Node.move, h]
  | loop => simp only [Node.mapBody, Node.move, h]
  | _ => rfl

theorem moveList_modifyAt {f g : List Node → List Node}
    (h : ∀ ns, Node.moveList r (f ns) = g (Node.moveList r ns)) (d : Nat) (ns : List Node) :
    Node.moveList r (modifyAt f d ns) = modifyAt g d (Node.moveList r ns) := by
  induction d generalizing ns with
  | zero => exact h ns
  | succ d ih =>
    rw [modifyAt, modifyAt, Node.moveList_eq_map, Node.moveList_eq_map]
    exact map_onLast (move_mapBody r ih) ns

theorem moveList_add (d : Nat) (n : Node) (ns : List Node) :
    Node.moveList r (add d n ns) = add d (n.move r) (Node.moveList r ns) :=
  moveList_modifyAt r (fun ns => by simp [Node.moveList_eq_map]) d ns

theorem moveList_addBranch (d : Nat) (b : Branch Node) (ns : List Node) :
    Node.moveList r (addBranch d b ns) =
      addBranch d (Node.moveBranch r b) (Node.moveList r ns) := by
  refine moveList_modifyAt r (fun ns => ?_) d ns
  rw [Node.moveList_eq_map, Node.moveList_eq_map]
  refine map_onLast (fun n => ?_) ns
  cases n <;> simp [Node.addBranch, Node.move, Node.moveBranches_eq_map]

end Outline

namespace Outliner

variable (es : List Diagnostic)

/-- The same state for lines at other places, with other reports before those that it has. -/
def relocate (s : Outliner) : Outliner :=
  { s with
    template := s.template.move r
    diagnostics := es ++ s.diagnostics.map (Diagnostic.move r) }

theorem relocate_note (s : Outliner) (ds : List Diagnostic) :
    (s.note ds).relocate r es = (s.relocate r es).note (ds.map (Diagnostic.move r)) := by
  simp [note, relocate]

theorem relocate_report (s : Outliner) (m : Mark) (p : Problem) (n : Nat) :
    (s.report m p n).relocate r es = (s.relocate r es).report (r.mark m) p n := by
  rw [report, relocate_note, List.map_singleton, Mark.move_diagnose]
  rfl

theorem relocate_error (s : Outliner) (d : Diagnostic) :
    (s.note [d]).relocate r es = (s.relocate r es).note [d.move r] :=
  relocate_note r es s [d]

theorem relocate_add (s : Outliner) (n : Node) :
    (s.add n).relocate r es = (s.relocate r es).add (n.move r) := by
  simp [add, relocate, Template.move, Outline.moveList_add]

theorem branchOf_move (head : BranchHead) : branchOf (head.move r) =
    (Node.moveBranch r (branchOf head).1, (branchOf head).2.map (Diagnostic.move r)) := by
  obtain ⟨test, inline, span⟩ := head
  cases inline with
  | none => rfl
  | some p =>
    simp only [branchOf, BranchHead.move, Option.map_some, Node.readInline_mark, Node.moveBranch]
    cases (Node.readInline p.1 p.2).1 <;> rfl

theorem relocate_pushBranch (s : Outliner) (head : BranchHead) (level : Nat) :
    (s.pushBranch head level).relocate r es =
      (s.relocate r es).pushBranch (head.move r) level := by
  rw [pushBranch_eq, pushBranch_eq, BranchHead.move, Option.isNone_map]
  rfl

/-- Moving lines does not matter to the id line. -/
theorem readId_relocate (s : Outliner) (m : Mark) (level : Nat) (line : Text) :
    (s.relocate r es).readId (r.mark m) level line = (s.readId m level line).relocate r es := by
  have hraw : (s.relocate r es).template.rawId = s.template.rawId := rfl
  simp only [readId, hraw, TemplateId.read_mark]
  split
  · rw [relocate_report]
  split
  · rw [relocate_report]
  split
  · rw [relocate_report]
  cases TemplateId.read m line with
  | error d => exact (relocate_error ..).symm
  | ok p => simp [moveResult, relocate, Template.move, r.span_mark]

/-- Moving lines does not matter to the head of the props block. -/
theorem openProps_relocate (s : Outliner) (m : Mark) (level : Nat) (line : Text) :
    (s.relocate r es).openProps (r.mark m) level line =
      (s.openProps m level line).relocate r es := by
  have hchildren : (s.relocate r es).template.children.isEmpty = s.template.children.isEmpty := by
    simp [relocate, Template.move, Node.moveList_eq_map]
  have hprops : (s.relocate r es).template.props.isSome = s.template.props.isSome := by
    simp [relocate, Template.move]
  simp only [openProps, hchildren, hprops]
  split
  · rw [relocate_report]
  split
  · rw [relocate_report]
  · simp [relocate, Template.move, PropsBlock.move, r.span_mark]

/-- Moving lines does not matter to the head of the classes block. -/
theorem openClasses_relocate (s : Outliner) (m : Mark) (level : Nat) (line : Text) :
    (s.relocate r es).openClasses (r.mark m) level line =
      (s.openClasses m level line).relocate r es := by
  have hchildren : (s.relocate r es).template.children.isEmpty = s.template.children.isEmpty := by
    simp [relocate, Template.move, Node.moveList_eq_map]
  have haliases : (s.relocate r es).template.aliases.isSome = s.template.aliases.isSome := by
    simp [relocate, Template.move]
  simp only [openClasses, hchildren, haliases]
  split
  · rw [relocate_report]
  split
  · rw [relocate_report]
  · simp [relocate, Template.move, AliasBlock.move, r.span_mark]

/-- Moving lines does not matter to a field. -/
theorem readField_relocate (s : Outliner) (m : Mark) (base level : Nat) (line : Text) :
    (s.relocate r es).readField (r.mark m) base level line =
      (s.readField m base level line).relocate r es := by
  simp only [readField, PropsField.read_mark]
  split
  · rw [relocate_report]
  cases PropsField.read m line with
  | error d => exact (relocate_error ..).symm
  | ok f =>
    simp only [moveResult, relocate, Template.move, Option.map_map]
    congr 3
    funext p
    simp [PropsBlock.move]

/-- Moving lines does not matter to an alias. -/
theorem readAlias_relocate (s : Outliner) (m : Mark) (base level : Nat) (line : Text) :
    (s.relocate r es).readAlias (r.mark m) base level line =
      (s.readAlias m base level line).relocate r es := by
  simp only [readAlias, ClassAlias.read_mark]
  split
  · rw [relocate_report]
  cases ClassAlias.read m line with
  | error d => exact (relocate_error ..).symm
  | ok a =>
    simp only [moveResult, relocate, Template.move, Option.map_map]
    congr 3
    funext b
    simp [AliasBlock.move]

theorem readIf_relocate (s : Outliner) (m : Mark) (level : Nat) (line : Text) :
    (s.relocate r es).readIf (r.mark m) level line = (s.readIf m level line).relocate r es := by
  simp only [readIf, BranchHead.readTested_mark]
  cases BranchHead.readTested .ifLine m line with
  | error d => exact (relocate_error ..).symm
  | ok head =>
    simp only [moveResult, branchOf_move, relocate_pushBranch]
    congr 1
    simp [relocate, note, add, Template.move, Outline.moveList_add, Node.move, Node.moveBranches,
      BranchHead.move]

theorem addBranch_relocate (s : Outliner) (head : BranchHead) (level : Nat) :
    (s.relocate r es).addBranch (head.move r) level = (s.addBranch head level).relocate r es := by
  simp only [addBranch, branchOf_move, relocate_pushBranch, relocate_note]
  congr 2
  simp [relocate, Template.move, Outline.moveList_addBranch]

theorem readElseIf_relocate (s : Outliner) (m : Mark) (level : Nat) (line : Text) :
    (s.relocate r es).readElseIf (r.mark m) level line =
      (s.readElseIf m level line).relocate r es := by
  have hchain : (s.relocate r es).chainAt? level = s.chainAt? level := rfl
  simp only [readElseIf, hchain, BranchHead.readTested_mark]
  split
  · rw [relocate_report]
  split
  · rw [relocate_report]
  cases BranchHead.readTested .elseIf m line with
  | error d => exact (relocate_error ..).symm
  | ok head => exact addBranch_relocate r es s head level

/-- Moving lines does not matter to an `@else` line. -/
theorem readElse_relocate (s : Outliner) (m : Mark) (level : Nat) (line : Text) :
    (s.relocate r es).readElse (r.mark m) level line =
      (s.readElse m level line).relocate r es := by
  have hchain : (s.relocate r es).chainAt? level = s.chainAt? level := rfl
  simp only [readElse, hchain, BranchHead.readElse_mark]
  split
  · rw [relocate_report]
  split
  · rw [relocate_report]
  · obtain ⟨cs, hcs⟩ : ∃ cs, cs = s.chains.map fun c =>
        if c.level == level then { c with hasElse := true } else c := ⟨_, rfl⟩
    have hchains : (s.relocate r es).chains = s.chains := rfl
    rw [hchains, ← hcs]
    exact addBranch_relocate r es { s with chains := cs } (BranchHead.readElse m line) level

theorem readLoop_relocate (s : Outliner) (m : Mark) (level : Nat) (line : Text) :
    (s.relocate r es).readLoop (r.mark m) level line =
      (s.readLoop m level line).relocate r es := by
  simp only [readLoop]
  split
  · rw [relocate_report]
  · next v i h =>
    have hadd := relocate_add r es s (.loop v i [] (some (m.span line.length)))
    rw [Node.move, Option.map_some, r.span_mark] at hadd
    exact congrArg (push · level) hadd.symm

/-- A line is read at its new place as it is at its old one. -/
theorem readKind_relocate (s : Outliner) (m : Mark) (level : Nat) (line : Text) (kind : LineKind) :
    (s.relocate r es).readKind (r.mark m) level line kind =
      (s.readKind m level line kind).relocate r es := by
  cases kind with
  | id => exact readId_relocate r es s m level line
  | props => exact openProps_relocate r es s m level line
  | classes => exact openClasses_relocate r es s m level line
  | ifLine => exact readIf_relocate r es s m level line
  | elseIf => exact readElseIf_relocate r es s m level line
  | elseLine => exact readElse_relocate r es s m level line
  | forLine => exact readLoop_relocate r es s m level line
  | pipe => simp only [readKind, Pipe.read_mark, relocate_note, relocate_add]
  | expression =>
    simp only [readKind, Node.readExpression_mark]
    cases Node.readExpression m line with
    | error d => exact (relocate_error ..).symm
    | ok n => exact (relocate_add ..).symm
  | element =>
    simp only [readKind, Node.readElement_mark]
    cases Node.readElement m line with
    | error d => exact (relocate_error ..).symm
    | ok p =>
      obtain ⟨n, ds⟩ := p
      have hnote := relocate_note r es (s.add n) ds
      rw [relocate_add] at hnote
      exact congrArg (push · level) hnote.symm

theorem readBody_relocate (s : Outliner) (m : Mark) (level : Nat) (line : Text) :
    (s.relocate r es).readBody (r.mark m) level line =
      (s.readBody m level line).relocate r es := by
  have hnext : (s.relocate r es).nextLevel = s.nextLevel := rfl
  simp only [readBody, hnext, ← relocate_report]
  split
  · exact readKind_relocate r es ((s.report m .indentJump 1).settle _ _) m _ line _
  · exact readKind_relocate r es (s.settle _ _) m _ line _

/-- A line with the same margin and the same content is read at its new place as at its old one. -/
theorem step_relocate (s : Outliner) {l l' : Line}
    (htext : Margin.ofLine l'.text = Margin.ofLine l.text)
    (hmark : ∀ column, l'.mark column = r.mark (l.mark column)) :
    (s.relocate r es).step l' = (s.step l).relocate r es := by
  simp only [step, htext, hmark]
  split
  · rfl
  · rw [relocate_report]
  · rw [relocate_report]
  · next level content hmargin =>
    have hclose : (s.relocate r es).closeHeaders level = (s.closeHeaders level).relocate r es := rfl
    rw [readLevel, readLevel, hclose]
    obtain ⟨t, ht⟩ : ∃ t, s.closeHeaders level = t := ⟨_, rfl⟩
    have hprops : (t.relocate r es).propsLevel = t.propsLevel := rfl
    have hclasses : (t.relocate r es).classesLevel = t.classesLevel := rfl
    simp only [ht, hprops, hclasses]
    split
    · exact readField_relocate r es t _ _ level content
    · exact readAlias_relocate r es t _ _ level content
    · exact readBody_relocate r es t _ level content

/-- A whole run at other places. -/
theorem foldl_relocate {ks ks' : List Line}
    (h : List.Forall₂ (fun k k' => Margin.ofLine k'.text = Margin.ofLine k.text ∧
      ∀ column, k'.mark column = r.mark (k.mark column)) ks ks') (s : Outliner) :
    ks'.foldl step (s.relocate r es) = (ks.foldl step s).relocate r es := by
  induction h generalizing s with
  | nil => rfl
  | cons hline _ ih =>
    rw [List.foldl_cons, List.foldl_cons, step_relocate r es s hline.1 hline.2, ih]

end Outliner

end

namespace Outliner

theorem relocate_refl (s : Outliner) (es : List Diagnostic) :
    s.relocate .refl es = { s with diagnostics := es ++ s.diagnostics } := by
  rw [relocate, Template.move_refl, List.map_id'' Diagnostic.move_refl]

/-- No line looks at what was reported before. -/
theorem exists_step_diagnostics (s : Outliner) (l : Line) :
    ∃ ds, (s.step l).diagnostics = s.diagnostics ++ ds ∧ ∀ es,
      { s with diagnostics := es }.step l = { s.step l with diagnostics := es ++ ds } := by
  have hstep : ∀ es, { s with diagnostics := es }.step l =
      { { s with diagnostics := [] }.step l with
        diagnostics := es ++ ({ s with diagnostics := [] }.step l).diagnostics } := by
    intro es
    have h := step_relocate .refl es { s with diagnostics := [] } (l := l) rfl fun _ => rfl
    simpa only [relocate_refl, List.append_nil] using h
  have hs : s.step l = _ := hstep s.diagnostics
  refine ⟨({ s with diagnostics := [] }.step l).diagnostics, by rw [hs], fun es => ?_⟩
  rw [hstep es, hs]

end Outliner

end Offside
