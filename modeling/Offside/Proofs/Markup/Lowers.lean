import Mathlib.Data.List.Basic
import Offside.Markup.Lowering

/-! What markup is lowered to, rule by rule. Markup that stands where text is kept as it is, within
an expression or as the value of an attribute, is replaced by a comment, and so is what has no
neutral form; each replacement is warned about once. -/
namespace Offside.Markup

namespace Node

/-- A node strictly inside another. -/
inductive Below : Node → Node → Prop
  | child {m n : Node} : m ∈ n.children → Below m n
  | deeper {m k n : Node} : k ∈ n.children → Below m k → Below m n

/-- An element, a tag that closes itself or an expression in braces is strictly inside the node. -/
def HoldsMarkup (n : Node) : Prop := ∃ m : Node, m.Below n ∧ m.kind.isMarkup = true

/-- What the tag of an element has in it, its attributes among them. A fragment's has nothing. -/
def tag (n : Node) : List Node :=
  match n.kind with
  | .element => if n.isFragment then [] else (n.opening?.map children).getD []
  | .selfClosing => n.children
  | _ => []

theorem kind_of_isFragment {n : Node} (h : n.isFragment = true) : n.kind = .element := by
  rw [isFragment, Bool.and_eq_true] at h
  exact beq_iff_eq.mp h.left

theorem mem_walk_self (n : Node) : n ∈ n.walk := by
  cases n
  rw [walk]
  exact List.mem_cons_self

theorem mem_walkList {m k : Node} {ns : List Node} (hm : m ∈ ns) (hk : k ∈ m.walk) :
    k ∈ walkList ns := by
  induction ns with
  | nil => cases hm
  | cons n ns ih =>
    rw [walkList]
    rcases List.mem_cons.mp hm with rfl | hm
    · exact List.mem_append_left _ hk
    · exact List.mem_append_right _ (ih hm)

theorem mem_walk_of_mem_walkList {m n : Node} (h : m ∈ walkList n.children) : m ∈ n.walk := by
  cases n
  rw [walk]
  exact List.mem_cons_of_mem _ h

mutual

theorem below_of_mem_walk {m : Node} : ∀ n : Node, m ∈ n.walk → m = n ∨ m.Below n
  | .mk k a b ns, h => by
    rw [walk] at h
    rcases List.mem_cons.mp h with rfl | h
    · exact Or.inl rfl
    · obtain ⟨c, hc, rfl | hbelow⟩ := exists_of_mem_walkList ns h
      · exact Or.inr (.child hc)
      · exact Or.inr (.deeper hc hbelow)

theorem exists_of_mem_walkList {m : Node} : ∀ ns : List Node, m ∈ walkList ns →
    ∃ c ∈ ns, m = c ∨ m.Below c
  | [], h => by cases h
  | n :: ns, h => by
    rw [walkList] at h
    rcases List.mem_append.mp h with h | h
    · exact ⟨n, List.mem_cons_self, below_of_mem_walk n h⟩
    · obtain ⟨c, hc, hm⟩ := exists_of_mem_walkList ns h
      exact ⟨c, List.mem_cons_of_mem n hc, hm⟩

end

theorem Below.mem_walkList {m n : Node} (h : m.Below n) : m ∈ walkList n.children := by
  induction h with
  | child hm => exact Node.mem_walkList hm (mem_walk_self _)
  | deeper hk _ ih => exact Node.mem_walkList hk (mem_walk_of_mem_walkList ih)

theorem HoldsMarkup.children_ne_nil {n : Node} (h : n.HoldsMarkup) : n.children ≠ [] := by
  obtain ⟨m, hbelow, -⟩ := h
  intro hnil
  have hm := hbelow.mem_walkList
  rw [hnil] at hm
  cases hm

theorem hasMarkup_iff (n : Node) : n.hasMarkup = true ↔ n.HoldsMarkup := by
  rw [hasMarkup, List.any_eq_true]
  constructor
  · rintro ⟨m, hm, hkind⟩
    obtain ⟨c, hc, rfl | hbelow⟩ := exists_of_mem_walkList _ hm
    · exact ⟨m, .child hc, hkind⟩
    · exact ⟨m, .deeper hc hbelow, hkind⟩
  · rintro ⟨m, hm, hkind⟩
    exact ⟨m, hm.mem_walkList, hkind⟩

end Node

variable {doc : Text} {n : Node} {ns run rest tag : List Node} {ks : List Ir.Node}
  {as : List Ir.Attribute} {ws : List Text} {a : Ir.Attribute} {c w : Text}

/-! ## The rules -/

/-- The comment for a node with markup where only text can stand. -/
def nestedComment (doc : Text) (n : Node) : Text :=
  comment ("Collie: nested JSX not converted: ".toList ++ preview (n.slice doc))

def nestedWarning (doc : Text) (n : Node) : Text :=
  "Nested JSX inside an expression was replaced with a placeholder: ".toList ++
    preview (n.slice doc)

/-- A node among elements that a comment takes the place of, with the comment and the warning. -/
inductive ReplacedChild (doc : Text) : Node → Text → Text → Prop
  | nested {n : Node} : n.kind = .expression → n.HoldsMarkup →
      ReplacedChild doc n (nestedComment doc n) (nestedWarning doc n)
  | unsupported {n : Node} : n.kind.isContent = false →
      ReplacedChild doc n (comment ("Collie unsupported: ".toList ++ n.kind.label))
        ("Unsupported JSX node omitted: ".toList ++ n.kind.label)

theorem ReplacedChild.isTextual_eq_false (h : ReplacedChild doc n c w) :
    n.kind.isTextual = false := by
  cases h with
  | nested hkind _ => rw [hkind]; rfl
  | unsupported hkind => cases hk : n.kind <;> simp_all [Kind.isContent, Kind.isTextual]

/-- A node among attributes that a comment takes the place of, with the comment and the warning. -/
inductive ReplacedAttribute (doc : Text) : Node → Text → Text → Prop
  | value {n name value : Node} {more : List Node} : n.kind = .tagAttribute →
      n.children = name :: value :: more →
      value.kind = .element ∨ value.kind = .selfClosing ∨
        value.kind = .expression ∧ value.HoldsMarkup →
      ReplacedAttribute doc n (nestedComment doc n) (nestedWarning doc n)
  | spread {n spread : Node} {more : List Node} : n.kind = .expression →
      n.children = spread :: more → spread.kind = .spread → n.HoldsMarkup →
      ReplacedAttribute doc n (nestedComment doc n) (nestedWarning doc n)
  | unsupported {n : Node} : n.kind = .expression → (∀ m ∈ n.children.head?, m.kind ≠ .spread) →
      ReplacedAttribute doc n
        (comment ("Collie unsupported attribute: ".toList ++ preview (n.slice doc)))
        ("Unsupported JSX attribute omitted: ".toList ++ n.slice doc)

/-- A node among attributes that is kept, with what it becomes. -/
inductive KeptAttribute (doc : Text) : Node → Ir.Attribute → Prop
  | nameless {n : Node} : n.kind = .tagAttribute → n.children = [] →
      KeptAttribute doc n (.named [] none)
  | bare {n name : Node} : n.kind = .tagAttribute → n.children = [name] →
      KeptAttribute doc n (.named (name.slice doc) none)
  | empty {n name value : Node} {more : List Node} : n.kind = .tagAttribute →
      n.children = name :: value :: more → value.kind = .expression → value.children = [] →
      KeptAttribute doc n (.named (name.slice doc) none)
  | expression {n name value : Node} {more : List Node} : n.kind = .tagAttribute →
      n.children = name :: value :: more → value.kind = .expression → value.children ≠ [] →
      ¬ value.HoldsMarkup →
      KeptAttribute doc n (.named (name.slice doc) (some ('{' :: innerText doc value ++ ['}'])))
  | literal {n name value : Node} {more : List Node} : n.kind = .tagAttribute →
      n.children = name :: value :: more → value.kind.isMarkup = false →
      KeptAttribute doc n (.named (name.slice doc) (some (value.slice doc)))
  | spread {n spread : Node} {more : List Node} : n.kind = .expression →
      n.children = spread :: more → spread.kind = .spread → ¬ n.HoldsMarkup →
      KeptAttribute doc n (.expression (spread.slice doc))

/-- What the nodes in a tag add to its attributes, with the warnings about them. -/
inductive LowersTag (doc : Text) : List Node → List Ir.Attribute → List Text → Prop
  | nil : LowersTag doc [] [] []
  | other {n : Node} {ns : List Node} {as : List Ir.Attribute} {ws : List Text} :
      n.kind ≠ .tagAttribute → n.kind ≠ .expression → LowersTag doc ns as ws →
      LowersTag doc (n :: ns) as ws
  | kept {n : Node} {ns : List Node} {a : Ir.Attribute} {as : List Ir.Attribute} {ws : List Text} :
      KeptAttribute doc n a → LowersTag doc ns as ws → LowersTag doc (n :: ns) (a :: as) ws
  | replaced {n : Node} {ns : List Node} {c w : Text} {as : List Ir.Attribute} {ws : List Text} :
      ReplacedAttribute doc n c w → LowersTag doc ns as ws →
      LowersTag doc (n :: ns) (.expression c :: as) (w :: ws)

/-- The element that a tag opens. The classes of its attributes are put together. -/
def elementOf (doc : Text) (tag : List Node) (as : List Ir.Attribute) (inner : List Ir.Node) :
    Ir.Node :=
  .ofParts (((tag.find? (·.kind.isTagName)).map (Node.slice doc)).getD []) (Ir.splitClasses as).2
    (Ir.splitClasses as).1 inner

/-- Where nodes side by side start and stop together. -/
def extent? : List Node → Option (Nat × Nat)
  | [] => none
  | n :: ns => some (n.start, (ns.getLast?.getD n).stop)

/-- What nodes side by side are lowered to, with the warnings about them: those about the content of
an element come before those about its attributes. -/
inductive Lowers (doc : Text) : List Node → List Ir.Node → List Text → Prop
  | nil : Lowers doc [] [] []
  | text {run rest : List Node} {ks : List Ir.Node} {ws : List Text} :
      run ≠ [] → (∀ n ∈ run, n.kind.isTextual = true) →
      (∀ n ∈ rest.head?, n.kind.isTextual = false) → Lowers doc rest ks ws →
      Lowers doc (run ++ rest) (lowerRun doc (extent? run) ++ ks) ws
  | element {n : Node} {ns : List Node} {inner ks : List Ir.Node} {as : List Ir.Attribute}
      {ws ws' ws'' : List Text} : n.kind = .element → n.isFragment = false →
      Lowers doc n.content inner ws → LowersTag doc n.tag as ws' → Lowers doc ns ks ws'' →
      Lowers doc (n :: ns) (elementOf doc n.tag as inner :: ks) (ws ++ ws' ++ ws'')
  | fragment {n : Node} {ns : List Node} {inner ks : List Ir.Node} {ws ws' : List Text} :
      n.isFragment = true → Lowers doc n.content inner ws → Lowers doc ns ks ws' →
      Lowers doc (n :: ns) (.fragment inner :: ks) (ws ++ ws')
  | selfClosing {n : Node} {ns : List Node} {ks : List Ir.Node} {as : List Ir.Attribute}
      {ws ws' : List Text} : n.kind = .selfClosing → LowersTag doc n.tag as ws →
      Lowers doc ns ks ws' →
      Lowers doc (n :: ns) (elementOf doc n.tag as [] :: ks) (ws ++ ws')
  | empty {n : Node} {ns : List Node} {ks : List Ir.Node} {ws : List Text} :
      n.kind = .expression → n.children = [] → Lowers doc ns ks ws → Lowers doc (n :: ns) ks ws
  | kept {n : Node} {ns : List Node} {ks : List Ir.Node} {ws : List Text} :
      n.kind = .expression → n.children ≠ [] → ¬ n.HoldsMarkup → Lowers doc ns ks ws →
      Lowers doc (n :: ns) (.expression (innerText doc n) :: ks) ws
  | replaced {n : Node} {ns : List Node} {c w : Text} {ks : List Ir.Node} {ws : List Text} :
      ReplacedChild doc n c w → Lowers doc ns ks ws →
      Lowers doc (n :: ns) (.expression c :: ks) (w :: ws)

/-! ## The rules are those of the lowering -/

/-- Inside an element, its tags do not count. -/
theorem lowerNodes_inside (doc : Text) (ns : List Node) : ∀ place : Option (Nat × Nat),
    lowerNodes doc true place ns =
      lowerNodes doc false place (ns.filter fun m => !m.kind.isTag) := by
  induction ns with
  | nil => exact fun _ => rfl
  | cons n ns ih =>
    intro place
    cases htag : n.kind.isTag with
    | true =>
      rw [List.filter_cons_of_neg (by simp [htag]), lowerNodes, htag]
      exact ih place
    | false =>
      rw [List.filter_cons_of_pos (by simp [htag]), lowerNodes, lowerNodes, htag]
      simp only [Bool.and_false, Bool.false_eq_true, if_false, ih]

theorem lowerNode_element (hkind : n.kind = .element) (hfragment : n.isFragment = false) :
    lowerNode doc n = ⟨[(lowerElement doc n.tag (lower doc n.content)).value],
      (lowerElement doc n.tag (lower doc n.content)).warnings⟩ := by
  obtain ⟨kind, start, stop, ns⟩ := n
  obtain rfl : kind = .element := hkind
  have htag : (Node.mk .element start stop ns).tag =
      ((Node.mk .element start stop ns).opening?.map Node.children).getD [] := by
    rw [Node.tag, hfragment]
    rfl
  rw [lowerNode, lowerNodes_inside, hfragment, htag]
  rfl

theorem lowerNode_fragment (hfragment : n.isFragment = true) :
    lowerNode doc n =
      ⟨[.fragment (lower doc n.content).value], (lower doc n.content).warnings⟩ := by
  obtain ⟨kind, start, stop, ns⟩ := n
  obtain rfl : kind = .element := Node.kind_of_isFragment hfragment
  rw [lowerNode, lowerNodes_inside, hfragment]
  rfl

theorem lowerNode_selfClosing (hkind : n.kind = .selfClosing) :
    lowerNode doc n = ⟨[(lowerElement doc n.tag (.plain [])).value],
      (lowerElement doc n.tag (.plain [])).warnings⟩ := by
  obtain ⟨kind, start, stop, ns⟩ := n
  obtain rfl : kind = .selfClosing := hkind
  rw [lowerNode]
  rfl

theorem lowerNode_expression (hkind : n.kind = .expression) :
    lowerNode doc n = lowerExpression doc n := by
  obtain ⟨kind, start, stop, ns⟩ := n
  obtain rfl : kind = .expression := hkind
  rw [lowerNode]

/-- An attribute that is kept is lowered without a warning. -/
theorem KeptAttribute.lowerTagChild?_eq (h : KeptAttribute doc n a) :
    lowerTagChild? doc n = some (.plain a) := by
  cases h with
  | nameless hkind hchildren => simp [lowerTagChild?, lowerAttribute, hkind, hchildren]
  | bare hkind hchildren => simp [lowerTagChild?, lowerAttribute, hkind, hchildren]
  | empty hkind hchildren hvalue hempty =>
    simp [lowerTagChild?, lowerAttribute, hkind, hchildren, hvalue, hempty]
  | expression hkind hchildren hvalue hne hmarkup =>
    rw [← Node.hasMarkup_iff] at hmarkup
    simp [lowerTagChild?, lowerAttribute, hkind, hchildren, hvalue, hne, hmarkup]
  | @literal name value more hkind hchildren hvalue =>
    have hne : ∀ k : Kind, k.isMarkup = true → value.kind ≠ k := by
      rintro k hk rfl
      rw [hk] at hvalue
      cases hvalue
    simp [lowerTagChild?, lowerAttribute, hkind, hchildren, hne .element rfl,
      hne .selfClosing rfl, hne .expression rfl]
  | spread hkind hchildren hspread hmarkup =>
    rw [← Node.hasMarkup_iff] at hmarkup
    simp [lowerTagChild?, lowerSpread, hkind, hchildren, hspread, hmarkup, Lowered.plain]

theorem nestedPlaceholder_eq (doc : Text) (n : Node) :
    nestedPlaceholder doc n = ⟨nestedComment doc n, [nestedWarning doc n]⟩ := rfl

/-- An attribute that is replaced is lowered to a comment and warned about. -/
theorem ReplacedAttribute.lowerTagChild?_eq (h : ReplacedAttribute doc n c w) :
    lowerTagChild? doc n = some ⟨.expression c, [w]⟩ := by
  cases h with
  | value hkind hchildren hvalue =>
    rcases hvalue with hvalue | hvalue | ⟨hvalue, hmarkup⟩
    · simp [lowerTagChild?, lowerAttribute, hkind, hchildren, hvalue, nestedPlaceholder_eq]
    · simp [lowerTagChild?, lowerAttribute, hkind, hchildren, hvalue, nestedPlaceholder_eq]
    · have hne := hmarkup.children_ne_nil
      rw [← Node.hasMarkup_iff] at hmarkup
      simp [lowerTagChild?, lowerAttribute, hkind, hchildren, hvalue, hmarkup, hne,
        nestedPlaceholder_eq]
  | spread hkind hchildren hspread hmarkup =>
    rw [← Node.hasMarkup_iff] at hmarkup
    simp [lowerTagChild?, lowerSpread, hkind, hchildren, hspread, hmarkup, nestedPlaceholder_eq]
  | unsupported hkind hfirst =>
    have hspread : lowerSpread doc n = ⟨.expression (unsupportedAttribute doc n).value,
        (unsupportedAttribute doc n).warnings⟩ := by
      rw [lowerSpread]
      cases hchildren : n.children with
      | nil => rfl
      | cons m ms =>
        have hm : m.kind ≠ .spread := hfirst m (by rw [hchildren]; rfl)
        simp [hm]
    rw [lowerTagChild?, if_neg (by simp [hkind]), if_pos (by simp [hkind]), hspread]
    rfl

/-- An attribute is kept or replaced. -/
theorem kept_or_replaced (doc : Text) (h : n.kind = .tagAttribute ∨ n.kind = .expression) :
    (∃ a, KeptAttribute doc n a) ∨ ∃ c w, ReplacedAttribute doc n c w := by
  rcases h with hkind | hkind
  · match hchildren : n.children with
    | [] => exact Or.inl ⟨_, .nameless hkind hchildren⟩
    | [name] => exact Or.inl ⟨_, .bare hkind hchildren⟩
    | name :: value :: more =>
      cases hliteral : value.kind.isMarkup with
      | false => exact Or.inl ⟨_, .literal hkind hchildren hliteral⟩
      | true =>
        by_cases hvalue : value.kind = .expression
        · by_cases hmarkup : value.HoldsMarkup
          · exact Or.inr ⟨_, _, .value hkind hchildren (Or.inr (Or.inr ⟨hvalue, hmarkup⟩))⟩
          by_cases hempty : value.children = []
          · exact Or.inl ⟨_, .empty hkind hchildren hvalue hempty⟩
          · exact Or.inl ⟨_, .expression hkind hchildren hvalue hempty hmarkup⟩
        · refine Or.inr ⟨_, _, .value hkind hchildren ?_⟩
          cases hk : value.kind <;> simp_all [Kind.isMarkup]
  · by_cases hfirst : ∀ m ∈ n.children.head?, m.kind ≠ .spread
    · exact Or.inr ⟨_, _, .unsupported hkind hfirst⟩
    · simp only [not_forall, not_not] at hfirst
      obtain ⟨m, hm, hspread⟩ := hfirst
      obtain ⟨more, hchildren⟩ := List.head?_eq_some_iff.mp hm
      by_cases hmarkup : n.HoldsMarkup
      · exact Or.inr ⟨_, _, .spread hkind hchildren hspread hmarkup⟩
      · exact Or.inl ⟨_, .spread hkind hchildren hspread hmarkup⟩

theorem exists_lowersTag (doc : Text) (tag : List Node) : ∃ as ws, LowersTag doc tag as ws := by
  induction tag with
  | nil => exact ⟨[], [], .nil⟩
  | cons n tag ih =>
    obtain ⟨as, ws, h⟩ := ih
    by_cases hkind : n.kind = .tagAttribute ∨ n.kind = .expression
    · rcases kept_or_replaced doc hkind with ⟨a, ha⟩ | ⟨c, w, hreplaced⟩
      · exact ⟨_, _, .kept ha h⟩
      · exact ⟨_, _, .replaced hreplaced h⟩
    · rw [not_or] at hkind
      exact ⟨as, ws, .other hkind.left hkind.right h⟩

/-- A tag is lowered to the attributes that its children come to. -/
theorem LowersTag.eq (h : LowersTag doc tag as ws) :
    (tag.filterMap (lowerTagChild? doc)).map Lowered.value = as ∧
      (tag.filterMap (lowerTagChild? doc)).flatMap Lowered.warnings = ws := by
  induction h with
  | nil => exact ⟨rfl, rfl⟩
  | @other n _ _ _ hattribute hexpression _ ih =>
    have hnone : lowerTagChild? doc n = none := by
      simp [lowerTagChild?, hattribute, hexpression]
    rwa [List.filterMap_cons_none hnone]
  | kept hkept _ ih =>
    rw [List.filterMap_cons_some hkept.lowerTagChild?_eq, List.map_cons, List.flatMap_cons,
      ih.left, ih.right]
    exact ⟨rfl, rfl⟩
  | replaced hreplaced _ ih =>
    rw [List.filterMap_cons_some hreplaced.lowerTagChild?_eq, List.map_cons, List.flatMap_cons,
      ih.left, ih.right]
    exact ⟨rfl, rfl⟩

theorem LowersTag.lowerElement_eq (h : LowersTag doc tag as ws)
    (children : Lowered (List Ir.Node)) : lowerElement doc tag children =
      ⟨elementOf doc tag as children.value, children.warnings ++ ws⟩ := by
  rw [lowerElement, h.eq.left, h.eq.right]
  rfl

/-- A node that is replaced is lowered to a comment and warned about. -/
theorem ReplacedChild.lowerNode_eq (h : ReplacedChild doc n c w) :
    lowerNode doc n = ⟨[.expression c], [w]⟩ := by
  cases h with
  | nested hkind hmarkup =>
    have hne := hmarkup.children_ne_nil
    rw [← Node.hasMarkup_iff] at hmarkup
    rw [lowerNode_expression hkind, lowerExpression]
    simp [hne, hmarkup, nestedPlaceholder_eq]
  | unsupported hkind =>
    obtain ⟨kind, start, stop, ns⟩ := n
    have hne : ∀ k : Kind, k.isContent = true → kind ≠ k := by
      rintro k hk rfl
      rw [Node.kind, hk] at hkind
      cases hkind
    rw [lowerNode]
    · rfl
    · rintro _ _ _ ⟨⟩
      exact hne .element rfl rfl
    · rintro _ _ _ ⟨⟩
      exact hne .selfClosing rfl rfl
    · rintro _ _ _ ⟨⟩
      exact hne .expression rfl rfl

/-- A node that is no text ends the text in front of it. -/
theorem lowerNodes_of_head (doc : Text) (place : Option (Nat × Nat))
    (h : ∀ m ∈ ns.head?, m.kind.isTextual = false) : lowerNodes doc false place ns =
      ⟨lowerRun doc place ++ (lower doc ns).value, (lower doc ns).warnings⟩ := by
  cases ns with
  | nil => simp [lower, lowerNodes, lowerRun, Lowered.plain]
  | cons n ns => simp [lower, lowerNodes, h n rfl, lowerRun]

theorem lower_cons (h : n.kind.isTextual = false) : lower doc (n :: ns) =
    ⟨(lowerNode doc n).value ++ (lower doc ns).value,
      (lowerNode doc n).warnings ++ (lower doc ns).warnings⟩ := by
  simp [lower, lowerNodes, h, lowerRun]

theorem lowerNodes_run (h : ∀ m ∈ run, m.kind.isTextual = true) : ∀ start : Nat, ∀ first : Node,
    lowerNodes doc false (some (start, first.stop)) (run ++ rest) =
      lowerNodes doc false (some (start, (run.getLast?.getD first).stop)) rest := by
  induction run with
  | nil => exact fun _ _ => rfl
  | cons n run ih =>
    intro start first
    have hn := h n List.mem_cons_self
    rw [List.cons_append, lowerNodes, if_neg (by simp), if_pos hn]
    simpa [List.getLast?_cons] using ih (fun m hm => h m (List.mem_cons_of_mem n hm)) start n

theorem lower_run (hrun : ∀ m ∈ run, m.kind.isTextual = true)
    (hrest : ∀ m ∈ rest.head?, m.kind.isTextual = false) : lower doc (run ++ rest) =
      ⟨lowerRun doc (extent? run) ++ (lower doc rest).value, (lower doc rest).warnings⟩ := by
  cases run with
  | nil => simp [extent?, lowerRun]
  | cons n run =>
    have hn := hrun n List.mem_cons_self
    rw [lower, List.cons_append, lowerNodes, if_neg (by simp), if_pos hn]
    simp only [Option.map_none, Option.getD_none]
    rw [lowerNodes_run fun m hm => hrun m (List.mem_cons_of_mem n hm),
      lowerNodes_of_head doc _ hrest]
    rfl

/-- By the rules, nodes are lowered to one thing only. -/
theorem Lowers.eq (h : Lowers doc ns ks ws) : lower doc ns = ⟨ks, ws⟩ := by
  induction h with
  | nil => rfl
  | text _ hrun hrest _ ih => rw [lower_run hrun hrest, ih]
  | element hkind hfragment _ htag _ ihinner ih =>
    rw [lower_cons (by rw [hkind]; rfl), lowerNode_element hkind hfragment, ihinner, ih,
      htag.lowerElement_eq]
    rfl
  | fragment hfragment _ _ ihinner ih =>
    rw [lower_cons (by rw [Node.kind_of_isFragment hfragment]; rfl), lowerNode_fragment hfragment,
      ihinner, ih]
    rfl
  | selfClosing hkind htag _ ih =>
    rw [lower_cons (by rw [hkind]; rfl), lowerNode_selfClosing hkind, ih, htag.lowerElement_eq]
    rfl
  | empty hkind hempty _ ih =>
    rw [lower_cons (by rw [hkind]; rfl), lowerNode_expression hkind, lowerExpression, hempty, ih]
    rfl
  | kept hkind hne hmarkup _ ih =>
    rw [← Node.hasMarkup_iff] at hmarkup
    rw [lower_cons (by rw [hkind]; rfl), lowerNode_expression hkind, lowerExpression, ih]
    simp [hne, hmarkup, Lowered.plain]
  | replaced hreplaced _ ih =>
    rw [lower_cons hreplaced.isTextual_eq_false, hreplaced.lowerNode_eq, ih]
    rfl

mutual

/-- Every list of nodes without text at its front is lowered somehow. -/
theorem exists_lowers_cons (doc : Text) : ∀ n : Node, n.kind.isTextual = false →
    ∀ {ns : List Node} {ks : List Ir.Node} {ws : List Text}, Lowers doc ns ks ws →
    ∃ ks ws, Lowers doc (n :: ns) ks ws
  | .mk kind start stop children, htextual, _, _, _, h => by
    obtain ⟨inner, ws', hinner⟩ := exists_lowers doc (fun m => !m.kind.isTag) children []
      (by simp)
    obtain ⟨as, ws'', htag⟩ := exists_lowersTag doc (Node.mk kind start stop children).tag
    by_cases hfragment : (Node.mk kind start stop children).isFragment = true
    · exact ⟨_, _, .fragment hfragment hinner h⟩
    rw [Bool.not_eq_true] at hfragment
    cases hkind : kind with
    | element => subst hkind; exact ⟨_, _, .element rfl hfragment hinner htag h⟩
    | selfClosing => subst hkind; exact ⟨_, _, .selfClosing rfl htag h⟩
    | expression =>
      subst hkind
      by_cases hempty : children = []
      · exact ⟨_, _, .empty rfl hempty h⟩
      by_cases hmarkup : (Node.mk .expression start stop children).HoldsMarkup
      · exact ⟨_, _, .replaced (.nested rfl hmarkup) h⟩
      · exact ⟨_, _, .kept rfl hempty hmarkup h⟩
    | text => subst hkind; cases htextual
    | reference => subst hkind; cases htextual
    | _ => exact ⟨_, _, .replaced (.unsupported rfl) h⟩

/-- `run` is the text in front of the nodes that are chosen. -/
theorem exists_lowers (doc : Text) (chosen : Node → Bool) : ∀ ns run : List Node,
    (∀ m ∈ run, m.kind.isTextual = true) → ∃ ks ws, Lowers doc (run ++ ns.filter chosen) ks ws
  | [], run, hrun => by
    by_cases hnil : run = []
    · subst hnil
      exact ⟨_, _, .nil⟩
    · exact ⟨_, _, .text hnil hrun (by simp) .nil⟩
  | n :: ns, run, hrun => by
    cases hchosen : chosen n with
    | false =>
      rw [List.filter_cons_of_neg (by simp [hchosen])]
      exact exists_lowers doc chosen ns run hrun
    | true =>
      rw [List.filter_cons_of_pos hchosen]
      cases htextual : n.kind.isTextual with
      | true =>
        have hrun' : ∀ m ∈ run ++ [n], m.kind.isTextual = true := by
          simpa [or_imp, forall_and, htextual] using hrun
        simpa using exists_lowers doc chosen ns (run ++ [n]) hrun'
      | false =>
        obtain ⟨ks, ws, hns⟩ := exists_lowers doc chosen ns [] (by simp)
        obtain ⟨ks, ws, hcons⟩ := exists_lowers_cons doc n htextual hns
        by_cases hnil : run = []
        · subst hnil
          exact ⟨_, _, hcons⟩
        · exact ⟨_, _, .text hnil hrun (by simpa using htextual) hcons⟩

end

/-- By the rules, all nodes are lowered to what they are lowered to. -/
theorem lowers_lower (doc : Text) (ns : List Node) :
    Lowers doc ns (lower doc ns).value (lower doc ns).warnings := by
  obtain ⟨ks, ws, h⟩ := exists_lowers doc (fun _ => true) ns [] (by simp)
  rw [List.nil_append, List.filter_true] at h
  rw [h.eq]
  exact h

end Offside.Markup
