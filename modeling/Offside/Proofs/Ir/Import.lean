import Offside.Import
import Offside.Proofs.Ir.RoundTrip
import Offside.Proofs.Markup.Lowered
import Offside.Proofs.Markup.Lowers
import Offside.Proofs.Text.Words

/-! Importing markup. What is lowered from markup has its texts squeezed and its expressions
trimmed, so a template holds it if its names, classes, texts and expressions fit into one; a name
that does not is written all the same. -/
namespace Offside

open Text

instance decidableNoPair (c : Char) (s : Text) : Decidable (NoPair c s) :=
  inferInstanceAs (Decidable (List.IsChain _ s))

instance decidableOneLine (s : Text) : Decidable (OneLine s) :=
  List.decidableBAll _ s

namespace Markup.Node

/-- The attribute is a literal `className` that lists classes. -/
def isClassName (doc : Text) (n : Node) : Bool :=
  match n.children with
  | [name, value] =>
    name.slice doc == ['c', 'l', 'a', 's', 's', 'N', 'a', 'm', 'e'] && value.kind == .string &&
      (Ir.classTokens? (value.slice doc)).isSome
  | _ => false

/-- Whether a tag has no attributes but a literal `className`. -/
def tagsClasses (doc : Text) (children : List Node) : Bool :=
  children.all fun a =>
    if a.kind == .tagAttribute then a.isClassName doc else a.kind != .expression

/-- Whether no element, at any depth, has an attribute but a literal `className`. -/
def hasOnlyClasses (doc : Text) (n : Node) : Bool :=
  n.walk.all fun m =>
    if m.kind == .opening || m.kind == .selfClosing then tagsClasses doc m.children else true

end Markup.Node

namespace Ir.Node

/-- What markup is lowered to if its elements have no attributes but classes. -/
inductive Tidy : Node → Prop
  | element {tag : Text} {classes : List Text} {children : List Node} :
      (∀ n ∈ children, Tidy n) → Tidy (.element tag classes [] children)
  | text {value : Text} : Trimmed value → OneLine value → Tidy (.text value)
  | expression {value : Text} : (value ≠ [] → Trimmed value) → Tidy (.expression value)
  | fragment {children : List Node} : (∀ n ∈ children, Tidy n) → Tidy (.fragment children)

/-- Whether a template can name an element so. On a line of their own, two names open a block of
the header. -/
def isTag (tag : Text) : Bool :=
  tag.head?.any Selector.isNameStart && tag.all Selector.isNameChar &&
    tag != ['p', 'r', 'o', 'p', 's'] && tag != ['c', 'l', 'a', 's', 's', 'e', 's']

mutual

/-- Whether the names, classes, texts and expressions of a node fit into a template. -/
def fits : Node → Bool
  | .element tag classes _ children =>
    isTag tag && classes.all (fun t => !t.isEmpty && t.all Selector.isClassChar) && fitAll children
  | .text value => decide (NoPair '{' value ∧ NoPair '}' value)
  | .expression value => decide (value ≠ [] ∧ NoPair '}' value ∧ OneLine value)
  | .fragment children => fitAll children
  | .conditional _ | .foreign => false

def fitAll : List Node → Bool
  | [] => true
  | n :: ns => n.fits && fitAll ns

end

theorem fits_of_fitAll {ns : List Node} (h : fitAll ns = true) : ∀ n ∈ ns, n.fits = true := by
  induction ns with
  | nil => simp
  | cons n ns ih =>
    rw [fitAll, Bool.and_eq_true] at h
    exact List.forall_mem_cons.mpr ⟨h.1, ih h.2⟩

theorem isName_of_isTag {tag : Text} (h : isTag tag = true) : IsName tag ∧
    tag ≠ ['p', 'r', 'o', 'p', 's'] ∧ tag ≠ ['c', 'l', 'a', 's', 's', 'e', 's'] := by
  simp only [isTag, Bool.and_eq_true, List.all_eq_true, bne_iff_ne, Option.any_eq_true] at h
  obtain ⟨⟨⟨⟨c, hhead, hc⟩, hchars⟩, hprops⟩, hclasses⟩ := h
  obtain ⟨s, rfl⟩ := List.head?_eq_some_iff.mp hhead
  exact ⟨⟨⟨c, s, rfl, hc⟩, hchars⟩, hprops, hclasses⟩

/-- What markup is lowered to can be written if it fits. -/
theorem Tidy.plain {n : Node} (h : n.Tidy) (hfits : n.fits = true) : n.Plain := by
  induction h with
  | element _ ih =>
    simp only [fits, Bool.and_eq_true, List.all_eq_true] at hfits
    obtain ⟨⟨htag, hclasses⟩, hchildren⟩ := hfits
    obtain ⟨hname, hprops, haliases⟩ := isName_of_isTag htag
    exact .element hname hprops haliases
      (fun t ht => ⟨by simpa using (hclasses t ht).1, (hclasses t ht).2⟩)
      fun n hn => ih n hn (fits_of_fitAll hchildren n hn)
  | text htrimmed hline =>
    rw [fits, decide_eq_true_eq] at hfits
    obtain ⟨hopen, hclose⟩ := hfits
    exact .text ⟨⟨htrimmed.ne_nil, hopen, hclose, hline⟩, htrimmed.ends⟩
  | expression htrimmed =>
    rw [fits, decide_eq_true_eq] at hfits
    obtain ⟨hne, hclose, hline⟩ := hfits
    exact .expression ⟨htrimmed hne, hclose, hline⟩
  | fragment _ ih => exact .fragment fun n hn => ih n hn (fits_of_fitAll hfits n hn)

end Ir.Node

namespace Markup

open Ir.Node

variable {doc : Text} {m n : Node} {ns tag : List Node} {ks inner : List Ir.Node}
  {as : List Ir.Attribute} {ws : List Text}

/-! ## What markup is lowered to -/

theorem tidy_lowerRun (doc : Text) (run : Option (Nat × Nat)) :
    ∀ k ∈ lowerRun doc run, k.Tidy := by
  cases run with
  | none => simp [lowerRun]
  | some place =>
    rw [lowerRun]
    split
    · simp
    · next hne =>
      intro k hk
      obtain rfl := List.mem_singleton.mp hk
      exact .text (spaced_squeeze hne).toTrimmed (spaced_squeeze hne).oneLine

theorem tidy_comment (s : Text) : (Ir.Node.expression (comment s)).Tidy := by
  have hcomment : comment s = ['/', '*'] ++ (' ' :: s ++ [' ']) ++ ['*', '/'] := by simp [comment]
  have hopen : Solid ['/', '*'] := by simp [Solid, isBlank]
  have hclose : Solid ['*', '/'] := by simp [Solid, isBlank]
  rw [hcomment]
  exact .expression fun _ => (hopen.trimmed (by simp)).append (hclose.trimmed (by simp)) _

/-- A literal `className` becomes classes. -/
theorem classes?_lowerAttribute (h : n.isClassName doc = true) :
    (lowerAttribute doc n).value.classes?.isSome = true := by
  rw [Node.isClassName.eq_def] at h
  split at h
  · next name value hchildren =>
    simp only [Bool.and_eq_true, beq_iff_eq] at h
    obtain ⟨⟨hname, hkind⟩, hclasses⟩ := h
    simpa [lowerAttribute, hchildren, hkind, Lowered.plain, hname, Ir.Attribute.classes?]
      using hclasses
  · cases h

/-- A tag with no other attributes keeps none. -/
theorem splitClasses_lowered (h : Node.tagsClasses doc tag = true) :
    (Ir.splitClasses ((tag.filterMap (lowerTagChild? doc)).map Lowered.value)).1 = [] := by
  rw [Ir.splitClasses, List.filter_eq_nil_iff]
  intro a ha
  obtain ⟨lowered, hlowered, rfl⟩ := List.mem_map.mp ha
  obtain ⟨n, hn, hlower⟩ := List.mem_filterMap.mp hlowered
  have hchild := List.all_eq_true.mp h n hn
  rw [lowerTagChild?] at hlower
  split at hlower
  · next hkind =>
    obtain rfl := Option.some.inj hlower
    rw [if_pos hkind] at hchild
    have := classes?_lowerAttribute hchild
    simp [Option.isSome_iff_ne_none.mp this]
  · next hkind =>
    rw [if_neg hkind] at hchild
    split at hlower
    · next hexpression => simp [beq_iff_eq.mp hexpression] at hchild
    · cases hlower

theorem tidy_elementOf (h : LowersTag doc tag as ws) (htag : Node.tagsClasses doc tag = true)
    (hinner : ∀ k ∈ inner, k.Tidy) : (elementOf doc tag as inner).Tidy := by
  have hnone := splitClasses_lowered htag
  rw [h.eq.left] at hnone
  rw [elementOf, hnone]
  exact .element hinner

theorem hasOnlyClasses_of_mem (h : n.hasOnlyClasses doc = true) (hm : m ∈ n.children) :
    m.hasOnlyClasses doc = true := by
  rw [Node.hasOnlyClasses, List.all_eq_true] at h ⊢
  exact fun k hk => h k (Node.mem_walk_of_mem_walkList (Node.mem_walkList hm hk))

theorem hasOnlyClasses_content (h : n.hasOnlyClasses doc = true) :
    ∀ m ∈ n.content, m.hasOnlyClasses doc = true :=
  fun _ hm => hasOnlyClasses_of_mem h (List.mem_of_mem_filter hm)

theorem tagsClasses_of_hasOnlyClasses (h : n.hasOnlyClasses doc = true)
    (hkind : n.kind = .opening ∨ n.kind = .selfClosing) :
    Node.tagsClasses doc n.children = true := by
  have hself := List.all_eq_true.mp h n (Node.mem_walk_self n)
  rwa [if_pos (by simpa using hkind)] at hself

/-- The tag of an element is one of its children. -/
theorem tagsClasses_tag (h : n.hasOnlyClasses doc = true) : Node.tagsClasses doc n.tag = true := by
  rw [Node.tag]
  split
  · split
    · rfl
    cases hopening : n.opening? with
    | none => rfl
    | some m =>
      have hm : m ∈ n.children := List.mem_of_find?_eq_some hopening
      have hkind : m.kind = .opening := by simpa using List.find?_some hopening
      exact tagsClasses_of_hasOnlyClasses (hasOnlyClasses_of_mem h hm) (Or.inl hkind)
  · next hkind => exact tagsClasses_of_hasOnlyClasses h (Or.inr hkind)
  · rfl

/-- What is lowered from elements with nothing but classes is tidy. -/
theorem Lowers.tidy (h : Lowers doc ns ks ws) (hns : ∀ n ∈ ns, n.hasOnlyClasses doc = true) :
    ∀ k ∈ ks, k.Tidy := by
  induction h with
  | nil => simp
  | text _ _ _ _ ih =>
    exact List.forall_mem_append.mpr
      ⟨tidy_lowerRun doc _, ih fun n hn => hns n (List.mem_append_right _ hn)⟩
  | element _ _ _ htag _ ihinner ih =>
    obtain ⟨hn, hns⟩ := List.forall_mem_cons.mp hns
    exact List.forall_mem_cons.mpr
      ⟨tidy_elementOf htag (tagsClasses_tag hn) (ihinner (hasOnlyClasses_content hn)), ih hns⟩
  | fragment _ _ _ ihinner ih =>
    obtain ⟨hn, hns⟩ := List.forall_mem_cons.mp hns
    exact List.forall_mem_cons.mpr ⟨.fragment (ihinner (hasOnlyClasses_content hn)), ih hns⟩
  | selfClosing _ htag _ ih =>
    obtain ⟨hn, hns⟩ := List.forall_mem_cons.mp hns
    exact List.forall_mem_cons.mpr
      ⟨tidy_elementOf htag (tagsClasses_tag hn) (by simp), ih hns⟩
  | empty _ _ _ ih => exact ih (List.forall_mem_cons.mp hns).2
  | kept _ _ _ _ ih =>
    exact List.forall_mem_cons.mpr
      ⟨.expression trimmed_trim, ih (List.forall_mem_cons.mp hns).2⟩
  | replaced hreplaced _ ih =>
    refine List.forall_mem_cons.mpr ⟨?_, ih (List.forall_mem_cons.mp hns).2⟩
    cases hreplaced <;> exact tidy_comment _

theorem tidy_lower {nodes : List Node} (h : ∀ n ∈ nodes, n.hasOnlyClasses doc = true) :
    ∀ k ∈ (lower doc nodes).value, k.Tidy := (lowers_lower doc nodes).tidy h

end Markup

/-! ## What an import is read as -/

namespace Ir

variable {ns : List Node}

theorem writeTemplate?_of_plain (h : ∀ n ∈ ns, n.Plain) :
    writeTemplate? {} ns = .ok (writeTemplate {} ns) := by
  have hindent : checkIndent ({} : Layout).indentSize = .ok () := by decide
  have hobstacle : obstacleOf? ns = none :=
    Node.obstacleOf?_eq_none fun n hn => (h n hn).obstacle?_eq_none
  rw [writeTemplate?, hindent, hobstacle]
  rfl

/-- What is written of plain nodes is read without a report, and lowered to the same nodes. -/
theorem read_writeTemplate (h : ∀ n ∈ ns, n.Plain) :
    (Template.read (writeTemplate {} ns)).diagnostics = [] ∧
      ofTemplate (Template.read (writeTemplate {} ns)).template = Node.spliceList ns := by
  have hheader : (templateOf ns).HeaderStands :=
    ⟨Or.inl ⟨rfl, rfl⟩, by simp [templateOf], by simp [templateOf]⟩
  obtain ⟨hbare, hread⟩ := Template.read_write_bare hheader (Node.stands_placedList h)
    (show ({} : Layout).indentSize = 2 from rfl)
  have hempty : (templateOf ns).emptyBodies = [] := by
    obtain ⟨hbranches, hloops⟩ := Node.filled_placedList fun n hn => (h n hn).filled
    simp [Template.emptyBodies, templateOf, hbranches, hloops]
  rw [writeTemplate_eq h]
  refine ⟨by rw [hread, Template.emptyBodies_eq_nil hbare hempty], ?_⟩
  rw [← ofTemplate_bare, hbare, ofTemplate_bare]
  exact Node.lowerList_placedList fun n hn => (h n hn).lower []

end Ir

variable {read? : Text → Option Markup.Node} {selection doc : Text} {nodes : List Markup.Node}

/-- Markup with no attributes but classes, whose names, classes, texts and expressions fit into a
template, is imported as a template that is read without a report, and as the same nodes. This is
so with any reader of programs. -/
theorem importMarkup_clean
    (hread : Markup.Selection.readWith read? selection = .ok (doc, nodes))
    (hclasses : ∀ n ∈ nodes, n.hasOnlyClasses doc = true)
    (hfits : ∀ k ∈ (Markup.lower doc nodes).value, k.fits = true) :
    ∃ imported, importMarkupWith read? {} selection = .ok imported ∧
      imported.nodes = (Markup.lower doc nodes).value ∧
      (Template.read imported.text).diagnostics = [] ∧
      Ir.ofTemplate (Template.read imported.text).template = Ir.Node.spliceList imported.nodes := by
  have hplain : ∀ k ∈ (Markup.lower doc nodes).value, k.Plain := fun k hk =>
    (Markup.tidy_lower hclasses k hk).plain (hfits k hk)
  obtain ⟨hdiagnostics, hnodes⟩ := Ir.read_writeTemplate hplain
  have himport : importMarkupWith read? {} selection = .ok ⟨(Markup.lower doc nodes).value,
      (Markup.lower doc nodes).warnings ++ Ir.warningsOf (Markup.lower doc nodes).value,
      Ir.writeTemplate {} (Markup.lower doc nodes).value⟩ := by
    rw [importMarkupWith, importNodesWith, hread]
    simp only [Except.mapError, bind, Except.bind, pure, Except.pure,
      Ir.writeTemplate?_of_plain hplain]
  exact ⟨_, himport, rfl, hdiagnostics, hnodes⟩

/-- A card with a heading that shows a text and an expression. -/
def cardSelection : Text := "<div className=\"card\">\n  <h2>Hello {name}</h2>\n</div>".toList

theorem importMarkup_clean_cardSelection :
    ∃ doc nodes, Markup.Selection.readWith Markup.Program.read? cardSelection = .ok (doc, nodes) ∧
      (∀ n ∈ nodes, n.hasOnlyClasses doc = true) ∧
      (∀ k ∈ (Markup.lower doc nodes).value, k.fits = true) ∧
      ∃ imported, importMarkupWith Markup.Program.read? {} cardSelection = .ok imported ∧
        imported.nodes = (Markup.lower doc nodes).value ∧
        (Template.read imported.text).diagnostics = [] ∧
        Ir.ofTemplate (Template.read imported.text).template =
          Ir.Node.spliceList imported.nodes := by
  have hcheck : (Markup.Selection.readWith Markup.Program.read? cardSelection).toOption.any
      (fun r => r.2.all (·.hasOnlyClasses r.1) && (Markup.lower r.1 r.2).value.all (·.fits)) =
        true := by
    decide +kernel
  cases hread : Markup.Selection.readWith Markup.Program.read? cardSelection with
  | error e =>
    rw [hread] at hcheck
    cases hcheck
  | ok r =>
    obtain ⟨doc, nodes⟩ := r
    rw [hread] at hcheck
    simp only [Except.toOption, Option.any_some, Bool.and_eq_true, List.all_eq_true] at hcheck
    obtain ⟨hclasses, hfits⟩ := hcheck
    exact ⟨doc, nodes, rfl, hclasses, hfits, importMarkup_clean hread hclasses hfits⟩

/-- An element without content, with a class that no template can hold. -/
def fractionContent : Markup.Content :=
  .closed ⟨['d', 'i', 'v'], [['w', '-', '1', '/', '2']]⟩ .nil

/-- The element as it is written. -/
def fractionSelection : Text := "<div className=\"w-1/2\" />".toList

example : fractionContent.write = fractionSelection := by decide +kernel

/-- With a reader that gives this tree, the element is imported without a warning all the same. -/
theorem not_clean_fractionSelection : ¬ ∀ (read? : Text → Option Markup.Node) doc nodes imported,
    read? (Markup.Selection.wrap fractionSelection) = some fractionContent.program →
      Markup.Selection.readWith read? fractionSelection = .ok (doc, nodes) →
      (∀ n ∈ nodes, n.hasOnlyClasses doc = true) →
      importMarkupWith read? {} fractionSelection = .ok imported → imported.warnings = [] →
      (Template.read imported.text).diagnostics = [] := by
  intro h
  let read? : Text → Option Markup.Node := fun _ => some fractionContent.program
  have hcheck : (Markup.Selection.readWith read? fractionSelection).toOption.any (fun r =>
      r.2.all (·.hasOnlyClasses r.1)) = true := by decide +kernel
  have himport : (importMarkupWith read? {} fractionSelection).toOption.any (fun i =>
      i.warnings.isEmpty && !(Template.read i.text).diagnostics.isEmpty) = true := by decide +kernel
  cases hread : Markup.Selection.readWith read? fractionSelection with
  | error e =>
    rw [hread] at hcheck
    cases hcheck
  | ok r =>
    obtain ⟨doc, nodes⟩ := r
    rw [hread] at hcheck
    simp only [Except.toOption, Option.any_some, List.all_eq_true] at hcheck
    cases himported : importMarkupWith read? {} fractionSelection with
    | error e =>
      rw [himported] at himport
      cases himport
    | ok imported =>
      rw [himported] at himport
      simp only [Except.toOption, Option.any_some, Bool.and_eq_true, List.isEmpty_iff] at himport
      obtain ⟨hwarnings, hdiagnostics⟩ := himport
      rw [h read? doc nodes imported rfl hread hcheck himported hwarnings] at hdiagnostics
      cases hdiagnostics

/-- It is the same with the reader of this library. -/
example : (importMarkup {} fractionSelection).toOption.map
    (fun i => (i.warnings.isEmpty, i.text)) = some (true, "div.w-1/2\n".toList) := by
  decide +kernel

end Offside
