import Mathlib.Tactic.Tauto
import Offside.Template.Printer
import Offside.Template.Reader

/-! Templates without their places. Two templates are the same when nothing but places tells them
apart, and neither writing nor the count of empty bodies looks at places. -/
namespace Offside

def Part.bare : Part → Part
  | .literal v => .literal v
  | .expression v _ => .expression v none

namespace Node

mutual

/-- A node without the places in it. -/
def bare : Node → Node
  | .element name classes children _ => .element name classes (bareList children) none
  | .text parts placement _ => .text (parts.map Part.bare) placement none
  | .expression value _ => .expression value none
  | .conditional branches _ => .conditional (bareBranches branches) none
  | .loop variableName iterable body _ => .loop variableName iterable (bareList body) none
  | .foreign label => .foreign label

def bareList : List Node → List Node
  | [] => []
  | n :: ns => n.bare :: bareList ns

def bareBranches : List (Branch Node) → List (Branch Node)
  | [] => []
  | b :: bs => bareBranch b :: bareBranches bs

def bareBranch : Branch Node → Branch Node
  | ⟨test, body, _⟩ => ⟨test, bareList body, none⟩

end

theorem bareList_eq_map (ns : List Node) : bareList ns = ns.map bare := by
  induction ns with
  | nil => rfl
  | cons n ns ih => simp [bareList, ih]

theorem bareBranches_eq_map (bs : List (Branch Node)) : bareBranches bs = bs.map bareBranch := by
  induction bs with
  | nil => rfl
  | cons b bs ih => simp [bareBranches, ih]

@[simp] theorem bareList_append (ns ms : List Node) :
    bareList (ns ++ ms) = bareList ns ++ bareList ms := by
  simp [bareList_eq_map]

@[simp] theorem bareBranches_append (bs cs : List (Branch Node)) :
    bareBranches (bs ++ cs) = bareBranches bs ++ bareBranches cs := by
  simp [bareBranches_eq_map]

end Node

def PropsField.bare (f : PropsField) : PropsField := { f with span := none }

def ClassAlias.bare (a : ClassAlias) : ClassAlias := { a with span := none, nameSpan := none }

def PropsBlock.bare (p : PropsBlock) : PropsBlock := ⟨p.fields.map PropsField.bare, none⟩

def AliasBlock.bare (b : AliasBlock) : AliasBlock := ⟨b.aliases.map ClassAlias.bare, none⟩

def Template.bare (t : Template) : Template :=
  { t with
    idSpan := none
    props := t.props.map PropsBlock.bare
    aliases := t.aliases.map AliasBlock.bare
    children := Node.bareList t.children
    span := none }

/-! ## The same, but for places -/

theorem sameAll_iff {α β : Type} {same : α → α → Bool} {f : α → β}
    (h : ∀ a b, same a b = true ↔ f a = f b) (as bs : List α) :
    sameAll same as bs = true ↔ as.map f = bs.map f := by
  induction as generalizing bs with
  | nil => cases bs <;> simp [sameAll]
  | cons a as ih =>
    cases bs with
    | nil => simp [sameAll]
    | cons b bs => simp [sameAll, h, ih]

theorem sameOption_iff {α β : Type} {same : α → α → Bool} {f : α → β}
    (h : ∀ a b, same a b = true ↔ f a = f b) (a b : Option α) :
    sameOption same a b = true ↔ a.map f = b.map f := by
  cases a <;> cases b <;> simp [sameOption, h]

theorem Part.same_iff (p q : Part) : p.same q = true ↔ p.bare = q.bare := by
  cases p <;> cases q <;> simp [Part.same, Part.bare]

theorem PropsField.same_iff (f g : PropsField) : f.same g = true ↔ f.bare = g.bare := by
  cases f
  cases g
  simp [PropsField.same, PropsField.bare, and_assoc]

theorem ClassAlias.same_iff (a b : ClassAlias) : a.same b = true ↔ a.bare = b.bare := by
  cases a
  cases b
  simp [ClassAlias.same, ClassAlias.bare]

namespace Node

mutual

theorem same_iff : ∀ n m : Node, n.same m = true ↔ n.bare = m.bare
  | .element _ _ ns _, m => by
    cases m <;> simp [Node.same, bare, sameList_iff ns, and_assoc]
  | .text ps _ _, m => by
    cases m <;> simp [Node.same, bare, sameAll_iff Part.same_iff]
  | .expression _ _, m => by
    cases m <;> simp [Node.same, bare]
  | .conditional bs _, m => by
    cases m <;> simp [Node.same, bare, sameBranches_iff bs]
  | .loop _ _ ns _, m => by
    cases m <;> simp [Node.same, bare, sameList_iff ns, and_assoc]
  | .foreign _, m => by
    cases m <;> simp [Node.same, bare]

theorem sameList_iff : ∀ ns ms : List Node, sameList ns ms = true ↔ bareList ns = bareList ms
  | [], ms => by
    cases ms <;> simp [sameList, bareList]
  | n :: ns, ms => by
    cases ms <;> simp [sameList, bareList, same_iff n, sameList_iff ns]

theorem sameBranches_iff : ∀ bs cs : List (Branch Node),
    sameBranches bs cs = true ↔ bareBranches bs = bareBranches cs
  | [], cs => by
    cases cs <;> simp [sameBranches, bareBranches]
  | b :: bs, cs => by
    cases cs <;> simp [sameBranches, bareBranches, sameBranch_iff b, sameBranches_iff bs]

theorem sameBranch_iff : ∀ b c : Branch Node, sameBranch b c = true ↔ bareBranch b = bareBranch c
  | ⟨_, ns, _⟩, c => by
    cases c
    simp [sameBranch, bareBranch, sameList_iff ns]

end

end Node

/-- Templates are the same exactly if they agree without their places. -/
theorem Template.same_iff (t u : Template) : t.same u = true ↔ t.bare = u.bare := by
  cases t
  cases u
  have hp := @sameOption_iff _ _ (fun p q => sameAll PropsField.same p.fields q.fields)
    PropsBlock.bare (by intro p q; simp [sameAll_iff PropsField.same_iff, PropsBlock.bare])
  have ha := @sameOption_iff _ _ (fun p q => sameAll ClassAlias.same p.aliases q.aliases)
    AliasBlock.bare (by intro p q; simp [sameAll_iff ClassAlias.same_iff, AliasBlock.bare])
  simp only [Template.same, Template.bare, Bool.and_eq_true, beq_iff_eq, hp, ha,
    Node.sameList_iff, Template.mk.injEq]
  tauto

/-! ## Writing looks at no places -/

theorem Pipe.payload_bare (ps : List Part) : payload (ps.map Part.bare) = payload ps := by
  induction ps with
  | nil => rfl
  | cons p ps ih =>
    cases p <;> simp_all [payload, Part.bare, writePart]

theorem Pipe.write_bare (spaced : Bool) (ps : List Part) :
    write spaced (ps.map Part.bare) = write spaced ps := by
  rw [write, payload_bare]
  rfl

namespace Node

/-- A body is on the line of its branch whatever the spans in it are. -/
theorem inlineBody?_bare (o : Layout) (ns : List Node) :
    inlineBody? o (bareList ns) = inlineBody? o ns := by
  rcases ns with _ | ⟨n, _ | ⟨m, ms⟩⟩
  · rfl
  · cases n with
    | element name classes children span =>
      rcases children with _ | ⟨k, _ | ⟨l, ls⟩⟩
      · rfl
      · cases k with
        | text ps placement _ =>
          cases placement <;> simp [bareList, bare, inlineBody?, Pipe.write_bare]
        | _ => rfl
      · simp [bareList, bare, inlineBody?]
    | text ps placement _ => cases placement <;> simp [bareList, bare, inlineBody?, Pipe.write_bare]
    | _ => rfl
  · simp [bareList, inlineBody?]

/-- Children that start with a text on the line of their element. -/
def Led (ns : List Node) : Prop := ∃ parts span rest, ns = .text parts .inline span :: rest

theorem led_bareList (ns : List Node) : Led (bareList ns) ↔ Led ns := by
  cases ns with
  | nil => simp [Led, bareList]
  | cons n ns => cases n <;> simp [Led, bareList, bare]

theorem lines_element_of_not_led {children : List Node} (h : ¬ Led children) (o : Layout)
    (level : Nat) (name : Text) (classes : List Text) (span : Option Span) :
    (Node.element name classes children span).lines o level =
      (indentation o.indentSize level ++ writeSelector o name classes) ::
        linesOf o (level + 1) children := by
  rw [lines]
  rintro parts span rest rfl
  exact h ⟨parts, span, rest, rfl⟩

mutual

theorem lines_bare (o : Layout) : ∀ (n : Node) (level : Nat), n.bare.lines o level = n.lines o level
  | .element name classes children span, level => by
    by_cases hled : Led children
    · obtain ⟨ps, span, rest, rfl⟩ := hled
      simp only [bare, bareList, lines, Pipe.write_bare, linesOf_bare o rest]
    · rw [bare, lines_element_of_not_led (mt (led_bareList children).mp hled),
        lines_element_of_not_led hled, linesOf_bare o children]
  | .text ps _ _, level => by simp [bare, lines, Pipe.write_bare]
  | .expression _ _, level => by simp [bare, lines]
  | .conditional bs _, level => by simp [bare, lines, branchLines_bare o bs]
  | .loop _ _ ns _, level => by simp [bare, lines, linesOf_bare o ns]
  | .foreign _, level => by simp [bare, lines]

theorem linesOf_bare (o : Layout) : ∀ (ns : List Node) (level : Nat),
    linesOf o level (bareList ns) = linesOf o level ns
  | [], _ => rfl
  | n :: ns, level => by simp [bareList, linesOf, lines_bare o n, linesOf_bare o ns]

theorem branchLines_bare (o : Layout) : ∀ (bs : List (Branch Node)) (level : Nat) (isFirst : Bool),
    branchLines o level isFirst (bareBranches bs) = branchLines o level isFirst bs
  | [], _, _ => rfl
  | b :: bs, level, isFirst => by
    simp [bareBranches, branchLines, linesOfBranch_bare o b, branchLines_bare o bs]

theorem linesOfBranch_bare (o : Layout) : ∀ (b : Branch Node) (level : Nat) (isFirst : Bool),
    linesOfBranch o level isFirst (bareBranch b) = linesOfBranch o level isFirst b
  | ⟨_, ns, _⟩, level, isFirst => by
    simp [bareBranch, linesOfBranch, inlineBody?_bare, linesOf_bare o ns]

end

end Node

theorem PropsBlock.lines_bare (o : Layout) (p : PropsBlock) : p.bare.lines o = p.lines o := by
  rw [PropsBlock.lines, PropsBlock.lines, PropsBlock.bare, List.map_map]
  rfl

theorem AliasBlock.lines_bare (o : Layout) (b : AliasBlock) : b.bare.lines o = b.lines o := by
  rw [AliasBlock.lines, AliasBlock.lines, AliasBlock.bare, List.map_map]
  rfl

theorem Template.sections_bare (o : Layout) (t : Template) : t.bare.sections o = t.sections o := by
  obtain ⟨id, rawId, idSpan, props, aliases, children, span⟩ := t
  have hp : (props.map PropsBlock.bare).map (PropsBlock.lines o) =
      props.map (PropsBlock.lines o) := by
    cases props <;> simp [PropsBlock.lines_bare]
  have ha : (aliases.map AliasBlock.bare).map (AliasBlock.lines o) =
      aliases.map (AliasBlock.lines o) := by
    cases aliases <;> simp [AliasBlock.lines_bare]
  have hc : (Node.bareList children).isEmpty = children.isEmpty := by
    cases children <;> rfl
  simp only [Template.sections, Template.bare, Template.writtenId?, hp, ha, hc,
    Node.linesOf_bare]

theorem Template.write_bare (o : Layout) (t : Template) : t.bare.write o = t.write o := by
  rw [Template.write, Template.write, Template.lines, Template.lines, Template.sections_bare]

/-- Templates that agree without their places are written alike. -/
theorem Template.write_eq {t u : Template} (h : t.bare = u.bare) (o : Layout) :
    t.write o = u.write o := by
  rw [← write_bare o t, h, write_bare]

/-! ## The header -/

namespace Template

def header (t : Template) : Template := { t with children := [] }

theorem sections_header (o : Layout) (t : Template) : t.header.sections o =
    (t.writtenId?.map fun id => [['#', 'i', 'd', ' '] ++ id]).toList ++
      (t.props.map (PropsBlock.lines o)).toList ++ (t.aliases.map (AliasBlock.lines o)).toList := by
  simp [header, sections, writtenId?]

theorem sections_eq (o : Layout) (t : Template) : t.sections o = t.header.sections o ++
    if t.children.isEmpty then [] else [Node.linesOf o 0 t.children] := by
  rw [sections_header, sections]

theorem flatten_sections (o : Layout) (t : Template) :
    (t.sections o).flatten = (t.header.sections o).flatten ++ Node.linesOf o 0 t.children := by
  rw [sections_eq, List.flatten_append]
  congr 1
  split
  · next he =>
    rw [List.isEmpty_iff.mp he]
    rfl
  · exact List.flatten_singleton

theorem bare_eq_iff {t u : Template} : t.bare = u.bare ↔
    t.header.bare = u.header.bare ∧ Node.bareList t.children = Node.bareList u.children := by
  simp only [bare, header, mk.injEq]
  tauto

end Template

/-! ## Counting empty bodies looks at no places -/

namespace Node

theorem isEmpty_bareList (ns : List Node) : (bareList ns).isEmpty = ns.isEmpty := by
  cases ns <;> rfl

@[simp] theorem emptyBranchesIn_append (ns ms : List Node) :
    emptyBranchesIn (ns ++ ms) = emptyBranchesIn ns ++ emptyBranchesIn ms := by
  induction ns with
  | nil => rfl
  | cons n ns ih => rw [List.cons_append, emptyBranchesIn, emptyBranchesIn, ih, List.append_assoc]

@[simp] theorem emptyLoopsIn_append (ns ms : List Node) :
    emptyLoopsIn (ns ++ ms) = emptyLoopsIn ns ++ emptyLoopsIn ms := by
  induction ns with
  | nil => rfl
  | cons n ns ih => rw [List.cons_append, emptyLoopsIn, emptyLoopsIn, ih, List.append_assoc]

mutual

theorem length_emptyBranches_bare : ∀ n : Node,
    n.bare.emptyBranches.length = n.emptyBranches.length
  | .element _ _ ns _ => by simp [bare, emptyBranches, length_emptyBranchesIn_bare ns]
  | .text .. => rfl
  | .expression .. => rfl
  | .conditional bs _ => by simp [bare, emptyBranches, length_emptyBranchesOf_bare bs]
  | .loop _ _ ns _ => by simp [bare, emptyBranches, length_emptyBranchesIn_bare ns]
  | .foreign _ => rfl

theorem length_emptyBranchesIn_bare : ∀ ns : List Node,
    (emptyBranchesIn (bareList ns)).length = (emptyBranchesIn ns).length
  | [] => rfl
  | n :: ns => by
    simp [bareList, emptyBranchesIn, length_emptyBranches_bare n, length_emptyBranchesIn_bare ns]

theorem length_emptyBranchesOf_bare : ∀ bs : List (Branch Node),
    (emptyBranchesOf (bareBranches bs)).length = (emptyBranchesOf bs).length
  | [] => rfl
  | b :: bs => by
    simp [bareBranches, emptyBranchesOf, length_emptyBranchesAt_bare b,
      length_emptyBranchesOf_bare bs]

theorem length_emptyBranchesAt_bare : ∀ b : Branch Node,
    (emptyBranchesAt (bareBranch b)).length = (emptyBranchesAt b).length
  | ⟨_, ns, _⟩ => by
    rw [bareBranch, emptyBranchesAt, emptyBranchesAt, isEmpty_bareList]
    split <;> simp [length_emptyBranchesIn_bare ns]

end

mutual

theorem length_emptyLoops_bare : ∀ n : Node, n.bare.emptyLoops.length = n.emptyLoops.length
  | .element _ _ ns _ => by simp [bare, emptyLoops, length_emptyLoopsIn_bare ns]
  | .text .. => rfl
  | .expression .. => rfl
  | .conditional bs _ => by simp [bare, emptyLoops, length_emptyLoopsOf_bare bs]
  | .loop _ _ ns _ => by
    rw [bare, emptyLoops, emptyLoops, isEmpty_bareList]
    split <;> simp [length_emptyLoopsIn_bare ns]
  | .foreign _ => rfl

theorem length_emptyLoopsIn_bare : ∀ ns : List Node,
    (emptyLoopsIn (bareList ns)).length = (emptyLoopsIn ns).length
  | [] => rfl
  | n :: ns => by
    simp [bareList, emptyLoopsIn, length_emptyLoops_bare n, length_emptyLoopsIn_bare ns]

theorem length_emptyLoopsOf_bare : ∀ bs : List (Branch Node),
    (emptyLoopsOf (bareBranches bs)).length = (emptyLoopsOf bs).length
  | [] => rfl
  | b :: bs => by
    simp [bareBranches, emptyLoopsOf, length_emptyLoopsAt_bare b, length_emptyLoopsOf_bare bs]

theorem length_emptyLoopsAt_bare : ∀ b : Branch Node,
    (emptyLoopsAt (bareBranch b)).length = (emptyLoopsAt b).length
  | ⟨_, ns, _⟩ => by simp [bareBranch, emptyLoopsAt, length_emptyLoopsIn_bare ns]

end

end Node

end Offside
