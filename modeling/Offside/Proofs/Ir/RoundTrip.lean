import Offside.Ir.ToTemplate
import Offside.Proofs.Ir.Lowering
import Offside.Proofs.Template.Layout
import Offside.Proofs.Template.WellFormed

/-! A neutral tree without attributes and conditionals is written as a template and lowered from
that again. Only its fragments are gone, which have no lines of their own. -/
namespace Offside.Ir

open Text

structure IsPlainClass (t : Text) : Prop where
  ne_nil : t ≠ []
  chars : ∀ c ∈ t, Selector.isClassChar c = true

/-- A text that keeps to a line of its own. Its first characters may be blanks, because one space
is written between them and the pipe. -/
structure IsPlainText (t : Text) : Prop where
  literal : IsLiteral t
  ends : EndsSolid t

namespace Node

/-- The node can be written as a template, and so can every node in it. -/
inductive Plain : Node → Prop
  | element {tag : Text} {classes : List Text} {children : List Node} : IsName tag →
      tag ≠ ['p', 'r', 'o', 'p', 's'] → tag ≠ ['c', 'l', 'a', 's', 's', 'e', 's'] →
      (∀ t ∈ classes, IsPlainClass t) → (∀ n ∈ children, Plain n) →
      Plain (.element tag classes [] children)
  | text {value : Text} : IsPlainText value → Plain (.text value)
  | expression {value : Text} : IsExpression value → Plain (.expression value)
  | fragment {children : List Node} : (∀ n ∈ children, Plain n) → Plain (.fragment children)

mutual

/-- What stands in the place of a node when fragments give way to their children. -/
def splice : Node → List Node
  | .element tag classes attributes children =>
    [.element tag classes attributes (spliceList children)]
  | .fragment children => spliceList children
  | .conditional branches => [.conditional (spliceBranches branches)]
  | .text value => [.text value]
  | .expression value => [.expression value]
  | .foreign => [.foreign]

/-- Nodes in a row, with the children of fragments in the places of the fragments. -/
def spliceList : List Node → List Node
  | [] => []
  | n :: ns => splice n ++ spliceList ns

def spliceBranches : List (Branch Node) → List (Branch Node)
  | [] => []
  | b :: bs => spliceBranch b :: spliceBranches bs

def spliceBranch : Branch Node → Branch Node
  | ⟨test, children⟩ => ⟨test, spliceList children⟩

end

/-- The part of a text that the only child of an element becomes, on the line of the element. -/
def onlyPart? : List Node → Option Part
  | [.text value] => some (.literal value)
  | [.expression value] => some (.expression value none)
  | _ => none

mutual

/-- The nodes of a template that a node is written as. -/
def placed : Node → List Offside.Node
  | .element tag classes _ children =>
    match onlyPart? children with
    | some part => [.element tag classes [.text [part] .inline none] none]
    | none => [.element tag classes (placedList children) none]
  | .fragment children => placedList children
  | .text value => [.text [.literal value] .block none]
  | .expression value => [.expression value none]
  | .conditional _ | .foreign => []

def placedList : List Node → List Offside.Node
  | [] => []
  | n :: ns => placed n ++ placedList ns

end

variable {o : Layout} {level : Nat} {n : Node} {ns : List Node} {part : Part} {v : Text}

theorem mem_placedList {m : Offside.Node} : m ∈ placedList ns ↔ ∃ n ∈ ns, m ∈ placed n := by
  induction ns with
  | nil => simp [placedList]
  | cons n ns ih => simp [placedList, ih]

/-! ## What is written -/

theorem pipe_literal (h : IsPlainText v) (o : Layout) :
    pipeText o v = Pipe.write o.spaceAroundPipe [.literal v] := by
  obtain ⟨c, s, rfl⟩ := List.exists_cons_of_ne_nil h.literal.ne_nil
  simp [pipeText, Pipe.write, Pipe.payload, Pipe.writePart]

theorem pipe_expression (v : Text) (o : Layout) :
    pipeText o (doubleBraced v) = Pipe.write o.spaceAroundPipe [.expression v none] := by
  simp [pipeText, doubleBraced, Pipe.write, Pipe.payload, Pipe.writePart]

/-- A part of its own is read again, and lowered to the node it comes from. -/
theorem of_onlyPart? (h : ∀ n ∈ ns, n.Plain) (hp : onlyPart? ns = some part) :
    Pipe.Readable [part] ∧ ofPartList [part] = ns ∧ spliceList ns = ns ∧
      ∀ o, onlyInline? o ns = some (Pipe.write o.spaceAroundPipe [part]) := by
  rcases ns with _ | ⟨n, _ | ⟨m, ms⟩⟩
  · simp [onlyPart?] at hp
  · cases h n List.mem_cons_self with
    | element _ _ _ _ _ => simp [onlyPart?] at hp
    | fragment _ => simp [onlyPart?] at hp
    | @text v hv =>
      obtain rfl : Part.literal v = part := by simpa [onlyPart?] using hp
      obtain ⟨c, s, rfl⟩ := List.exists_cons_of_ne_nil hv.literal.ne_nil
      refine ⟨.literal hv.literal hv.ends, rfl, rfl, fun o => ?_⟩
      rw [onlyInline?, pipe_literal hv]
    | @expression v hv =>
      obtain rfl : Part.expression v none = part := by simpa [onlyPart?] using hp
      refine ⟨.expression hv .nil, rfl, rfl, fun o => ?_⟩
      rw [onlyInline?, pipe_expression]
  · simp [onlyPart?] at hp

theorem onlyInline?_eq_none (hp : onlyPart? ns = none) (o : Layout) : onlyInline? o ns = none := by
  rcases ns with _ | ⟨n, _ | ⟨m, ms⟩⟩
  · simp [onlyInline?]
  · cases n <;> simp [onlyInline?, onlyPart?] at *
  · simp [onlyInline?]

theorem isClass_of_plain (h : IsPlainClass v) : IsClass v := by
  obtain ⟨c, s, rfl⟩ := List.exists_cons_of_ne_nil h.ne_nil
  exact ⟨c, s, Or.inl rfl, h.chars⟩

/-- What is written stands, so it is read again. -/
theorem Plain.stands (h : n.Plain) : ∀ m ∈ placed n, m.Stands Pipe.Readable := by
  induction h with
  | @element tag classes children htag hprops haliases hclasses hplain ih =>
    have hareClasses : ∀ t ∈ classes, IsClass t := fun t ht => isClass_of_plain (hclasses t ht)
    intro m hm
    rw [placed] at hm
    split at hm
    · rename_i part hpart
      obtain rfl := List.mem_singleton.mp hm
      exact .led htag hareClasses (of_onlyPart? hplain hpart).1 (by simp)
    · obtain rfl := List.mem_singleton.mp hm
      refine .element ⟨htag, hareClasses, fun _ => ⟨hprops, haliases⟩⟩ fun k hk => ?_
      obtain ⟨n, hn, hk⟩ := mem_placedList.mp hk
      exact ih n hn k hk
  | text hv =>
    intro m hm
    obtain rfl := List.mem_singleton.mp hm
    exact .text (.literal hv.literal hv.ends)
  | expression hv =>
    intro m hm
    obtain rfl := List.mem_singleton.mp hm
    exact .expression hv
  | fragment hplain ih =>
    intro m hm
    obtain ⟨n, hn, hm⟩ := mem_placedList.mp hm
    exact ih n hn m hm

theorem stands_placedList (h : ∀ n ∈ ns, n.Plain) :
    ∀ m ∈ placedList ns, m.Stands Pipe.Readable := by
  intro m hm
  obtain ⟨n, hn, hm⟩ := mem_placedList.mp hm
  exact (h n hn).stands m hm

theorem not_led_placedList (h : ∀ n ∈ ns, n.Plain) : ¬ Node.Led (placedList ns) := by
  rintro ⟨ps, span, rest, hrest⟩
  have hstands := stands_placedList h (.text ps .inline span) (by simp [hrest])
  exact Bool.noConfusion (Node.isInline_of_stands hstands)

theorem templateLinesOf_eq (ih : ∀ n ∈ ns, ∀ level,
    templateLines o level n = Node.linesOf o level (placed n)) (level : Nat) :
    templateLinesOf o level ns = Node.linesOf o level (placedList ns) := by
  induction ns with
  | nil => rfl
  | cons n ns ihns =>
    rw [templateLinesOf, placedList, Node.linesOf_append, ih n List.mem_cons_self,
      ihns fun n hn => ih n (List.mem_cons_of_mem _ hn)]

/-- The lines are those of the template. -/
theorem Plain.lines (h : n.Plain) (o : Layout) (level : Nat) :
    templateLines o level n = Node.linesOf o level (placed n) := by
  induction h generalizing level with
  | @element tag classes children htag hprops haliases hclasses hplain ih =>
    have hselector : selector o tag classes [] = Node.writeSelector o tag classes := by
      simp [selector, Node.writeSelector]
    rw [templateLines, placed, hselector]
    cases hpart : onlyPart? children with
    | some part =>
      obtain ⟨-, -, -, hinline⟩ := of_onlyPart? hplain hpart
      simp [hinline o, Node.linesOf, Node.lines]
    | none =>
      have hlines := Node.lines_element_of_not_led (not_led_placedList hplain) o level tag classes
        none
      rw [onlyInline?_eq_none hpart, templateLinesOf_eq ih]
      simp [Node.linesOf, hlines]
  | text hv => simp [templateLines, placed, Node.linesOf, Node.lines, pipe_literal hv]
  | @expression v hv => rfl
  | fragment hplain ih => exact templateLinesOf_eq ih level

/-! ## What is read and lowered -/

theorem normalizeClasses_of_solid {classes : List Text} (h : ∀ t ∈ classes, t ≠ [] ∧ Solid t) :
    normalizeClasses classes = classes := by
  have htrim : ∀ t ∈ classes, trim t = id t := fun t ht => ((h t ht).2.trimmed (h t ht).1).trim_eq
  rw [normalizeClasses, List.map_congr_left htrim, List.map_id, List.filter_eq_self]
  intro t ht
  simp [(h t ht).1]

theorem normalizeClasses_eq {classes : List Text} (h : ∀ t ∈ classes, IsPlainClass t) :
    normalizeClasses classes = classes :=
  normalizeClasses_of_solid fun t ht =>
    ⟨(h t ht).ne_nil, Selector.solid_of_isClass (isClass_of_plain (h t ht))⟩

/-- A plain class stands for itself. -/
theorem expand_eq {classes : List Text} (h : ∀ t ∈ classes, IsPlainClass t) (env : AliasEnv) :
    env.expand classes = classes := by
  induction classes with
  | nil => rfl
  | cons t ts ih =>
    have ht := h t List.mem_cons_self
    obtain ⟨c, s, rfl⟩ := List.exists_cons_of_ne_nil ht.ne_nil
    have hc : c ≠ '$' := by
      rintro rfl
      exact absurd (ht.chars '$' List.mem_cons_self) (by decide)
    rw [AliasEnv.expand, List.flatMap_cons, env.expandToken_literal hc]
    exact congrArg ((c :: s) :: ·) (ih fun t ht => h t (List.mem_cons_of_mem _ ht))

theorem lowerList_append (env : AliasEnv) (ns ms : List Offside.Node) :
    lowerList env (ns ++ ms) = lowerList env ns ++ lowerList env ms := by
  induction ns with
  | nil => rfl
  | cons n ns ih => rw [List.cons_append, lowerList, lowerList, ih, List.append_assoc]

theorem lowerList_placedList {env : AliasEnv}
    (ih : ∀ n ∈ ns, lowerList env (placed n) = splice n) :
    lowerList env (placedList ns) = spliceList ns := by
  induction ns with
  | nil => rfl
  | cons n ns ihns =>
    rw [placedList, lowerList_append, spliceList, ih n List.mem_cons_self,
      ihns fun n hn => ih n (List.mem_cons_of_mem _ hn)]

/-- Lowering what a node is written as gives the node without its fragments. -/
theorem Plain.lower (h : n.Plain) (env : AliasEnv) : lowerList env (placed n) = splice n := by
  induction h with
  | @element tag classes children htag hprops haliases hclasses hplain ih =>
    rw [placed, splice]
    cases hpart : onlyPart? children with
    | some part =>
      obtain ⟨-, hparts, hsplice, -⟩ := of_onlyPart? hplain hpart
      simp [lowerList, Ir.lower, ofParts, expand_eq hclasses, normalizeClasses_eq hclasses, hparts,
        hsplice]
    | none =>
      simp [lowerList, Ir.lower, ofParts, expand_eq hclasses, normalizeClasses_eq hclasses,
        lowerList_placedList ih]
  | @text v hv =>
    obtain ⟨c, s, rfl⟩ := List.exists_cons_of_ne_nil hv.literal.ne_nil
    rfl
  | expression hv => rfl
  | fragment hplain ih => exact lowerList_placedList ih

theorem filled_placedList (ih : ∀ n ∈ ns,
    Node.emptyBranchesIn (placed n) = [] ∧ Node.emptyLoopsIn (placed n) = []) :
    Node.emptyBranchesIn (placedList ns) = [] ∧ Node.emptyLoopsIn (placedList ns) = [] := by
  induction ns with
  | nil => exact ⟨rfl, rfl⟩
  | cons n ns ihns =>
    obtain ⟨hbranches, hloops⟩ := ih n List.mem_cons_self
    obtain ⟨hbranches', hloops'⟩ := ihns fun n hn => ih n (List.mem_cons_of_mem _ hn)
    simp [placedList, hbranches, hloops, hbranches', hloops']

/-- Nothing that is written lacks a body. -/
theorem Plain.filled (h : n.Plain) :
    Node.emptyBranchesIn (placed n) = [] ∧ Node.emptyLoopsIn (placed n) = [] := by
  induction h with
  | @element tag classes children _ _ _ _ _ ih =>
    rw [placed]
    cases onlyPart? children with
    | some part => exact ⟨rfl, rfl⟩
    | none => simpa [Node.emptyBranchesIn, Node.emptyLoopsIn, Node.emptyBranches, Node.emptyLoops]
        using filled_placedList ih
  | text _ => exact ⟨rfl, rfl⟩
  | expression _ => exact ⟨rfl, rfl⟩
  | fragment _ ih => exact filled_placedList ih

theorem obstacleOf?_eq_none (ih : ∀ n ∈ ns, obstacle? n = none) : obstacleOf? ns = none := by
  induction ns with
  | nil => rfl
  | cons n ns ihns =>
    rw [obstacleOf?, ih n List.mem_cons_self, ihns fun n hn => ih n (List.mem_cons_of_mem _ hn)]
    rfl

theorem Plain.obstacle?_eq_none (h : n.Plain) : obstacle? n = none := by
  induction h with
  | element _ _ _ _ _ ih => exact obstacleOf?_eq_none ih
  | text _ => rfl
  | expression _ => rfl
  | fragment _ ih => exact obstacleOf?_eq_none ih

end Node

def templateOf (ns : List Node) : Template :=
  ⟨none, none, none, none, none, Node.placedList ns, none⟩

variable {o : Layout} {ns : List Node}

/-- The writer of neutral trees and the writer of templates agree. -/
theorem writeTemplate_eq (h : ∀ n ∈ ns, n.Plain) (o : Layout) :
    writeTemplate o ns = (templateOf ns).write o := by
  have hlines : templateLinesOf o 0 ns = Node.linesOf o 0 (Node.placedList ns) :=
    Node.templateLinesOf_eq (fun n hn level => (h n hn).lines o level) 0
  rw [writeTemplate, hlines, Template.write, Template.lines, Template.sections]
  cases hp : Node.placedList ns with
  | nil => simp [templateOf, Template.writtenId?, hp, Node.linesOf]
  | cons m ms => simp [templateOf, Template.writtenId?, hp, List.intercalate]

/-- A tree that is written as a template is read from that without a report, and lowered to the
tree without its fragments. -/
theorem ofTemplate_read_write (ho : o.indentSize = 2) (h : ∀ n ∈ ns, n.Plain) :
    ∃ p, writeTemplate? o ns = .ok p ∧ (Template.read p).diagnostics = [] ∧
      ofTemplate (Template.read p).template = Node.spliceList ns := by
  have hindent : checkIndent 2 = .ok () := by decide
  have hobstacle : obstacleOf? ns = none :=
    Node.obstacleOf?_eq_none fun n hn => (h n hn).obstacle?_eq_none
  have hheader : (templateOf ns).HeaderStands :=
    ⟨Or.inl ⟨rfl, rfl⟩, by simp [templateOf], by simp [templateOf]⟩
  obtain ⟨hbare, hread⟩ := Template.read_write_bare hheader (Node.stands_placedList h) ho
  have hempty : (templateOf ns).emptyBodies = [] := by
    obtain ⟨hbranches, hloops⟩ := Node.filled_placedList fun n hn => (h n hn).filled
    simp [Template.emptyBodies, templateOf, hbranches, hloops]
  refine ⟨(templateOf ns).write o, ?_, ?_, ?_⟩
  · rw [writeTemplate?, ho, hindent, hobstacle, writeTemplate_eq h]
    rfl
  · rw [hread, Template.emptyBodies_eq_nil hbare hempty]
  · rw [← ofTemplate_bare, hbare, ofTemplate_bare]
    exact Node.lowerList_placedList fun n hn => (h n hn).lower []

/-- An element in a fragment, with a fragment and an element in it, and an expression after it. -/
def fragmentedNodes : List Node :=
  [.fragment [.element ['u', 'l'] [['a', '-', '1']] []
      [.fragment [.text [' ', '{', 'x']], .element ['p'] [] [] [.expression ['n', '}']]]],
    .expression ['a', '{', '{', 'b']]

theorem plain_fragmentedNodes : ∀ n ∈ fragmentedNodes, n.Plain := by
  have htext : (Node.text [' ', '{', 'x']).Plain :=
    .text ⟨⟨by simp, by simp [NoPair], by simp [NoPair], by simp [OneLine]⟩,
      by simp [EndsSolid, isBlank]⟩
  have hcount : (Node.expression ['n', '}']).Plain :=
    .expression ⟨⟨by simp, by simp [StartsSolid, isBlank], by simp [EndsSolid, isBlank]⟩,
      by simp [NoPair], by simp [OneLine]⟩
  have hopen : (Node.expression ['a', '{', '{', 'b']).Plain :=
    .expression ⟨⟨by simp, by simp [StartsSolid, isBlank], by simp [EndsSolid, isBlank]⟩,
      by simp [NoPair], by simp [OneLine]⟩
  have hparagraph : (Node.element ['p'] [] [] [.expression ['n', '}']]).Plain :=
    .element ⟨⟨'p', [], rfl, by decide⟩, List.all_eq_true.mp rfl⟩ (by decide) (by decide)
      (by simp) (List.forall_mem_singleton.mpr hcount)
  have hlist : (Node.element ['u', 'l'] [['a', '-', '1']] []
      [.fragment [.text [' ', '{', 'x']], .element ['p'] [] [] [.expression ['n', '}']]]).Plain :=
    .element ⟨⟨'u', ['l'], rfl, by decide⟩, List.all_eq_true.mp rfl⟩ (by decide) (by decide)
      (List.forall_mem_singleton.mpr ⟨by simp, List.all_eq_true.mp rfl⟩)
      (List.forall_mem_cons.mpr ⟨.fragment (List.forall_mem_singleton.mpr htext),
        List.forall_mem_singleton.mpr hparagraph⟩)
  exact List.forall_mem_cons.mpr ⟨.fragment (List.forall_mem_singleton.mpr hlist),
    List.forall_mem_singleton.mpr hopen⟩

theorem ofTemplate_read_write_fragmentedNodes :
    ∃ p, writeTemplate? { compactSelectors := false } fragmentedNodes = .ok p ∧
      (Template.read p).diagnostics = [] ∧
      ofTemplate (Template.read p).template =
        [.element ['u', 'l'] [['a', '-', '1']] []
            [.text [' ', '{', 'x'], .element ['p'] [] [] [.expression ['n', '}']]],
          .expression ['a', '{', '{', 'b']] :=
  ofTemplate_read_write rfl plain_fragmentedNodes

end Offside.Ir
