import Offside.Proofs.Ir.RoundTrip

/-! The elements of a tree and nothing else. A template of elements and of texts without
expressions is lowered to elements and texts whose names and classes markup can hold. -/
namespace Offside

open Text

/-! ## Templates without expressions -/

namespace Node

def isElement : Node → Bool
  | .element _ _ _ _ => true
  | _ => false

mutual

/-- Whether a node is made of elements, and of texts without expressions. -/
def isStatic : Node → Bool
  | .element _ _ children _ => allStatic children
  | .text ps _ _ => ps.all Part.isLiteral
  | .expression _ _ | .conditional _ _ | .loop _ _ _ _ | .foreign _ => false

def allStatic : List Node → Bool
  | [] => true
  | n :: ns => n.isStatic && allStatic ns

end

variable {n : Node} {ns : List Node}

theorem isStatic_of_mem (h : allStatic ns = true) (hn : n ∈ ns) : n.isStatic = true := by
  induction ns with
  | nil => cases hn
  | cons m ms ih =>
    rw [allStatic, Bool.and_eq_true] at h
    rcases List.mem_cons.mp hn with rfl | hn
    · exact h.1
    · exact ih h.2 hn

end Node

/-- Whether a template has no props, and only elements and texts without expressions. -/
def Template.isStatic (t : Template) : Bool := t.props.isNone && Node.allStatic t.children

namespace Ir

/-- An element with its tag, its classes, and the elements inside it. -/
inductive Skeleton
  | mk (tag : Text) (classes : List Text) (children : List Skeleton)
deriving Repr

namespace Node

mutual

/-- The elements of a node. The nodes between an element and those inside it leave no trace. -/
def skeleton : Node → List Skeleton
  | .element tag classes _ children => [.mk tag classes (skeletonOf children)]
  | .fragment children => skeletonOf children
  | .conditional branches => skeletonOfBranches branches
  | .text _ | .expression _ | .foreign => []

def skeletonOf : List Node → List Skeleton
  | [] => []
  | n :: ns => n.skeleton ++ skeletonOf ns

def skeletonOfBranches : List (Branch Node) → List Skeleton
  | [] => []
  | b :: bs => skeletonOfBranch b ++ skeletonOfBranches bs

def skeletonOfBranch : Branch Node → List Skeleton
  | ⟨_, children⟩ => skeletonOf children

end

/-- The node is made of texts, and of elements with nothing but classes, and it can be written as
markup. -/
inductive Static : Node → Prop
  | element {tag : Text} {classes : List Text} {children : List Node} : IsName tag →
      (∀ t ∈ classes, IsPlainClass t) → (∀ n ∈ children, Static n) →
      Static (.element tag classes [] children)
  | text {value : Text} : Static (.text value)

variable {n : Node} {ns ms : List Node}

@[simp] theorem skeletonOf_nil : skeletonOf [] = [] := rfl

@[simp] theorem skeletonOf_cons : skeletonOf (n :: ns) = n.skeleton ++ skeletonOf ns := rfl

@[simp] theorem skeletonOf_append : skeletonOf (ns ++ ms) = skeletonOf ns ++ skeletonOf ms := by
  induction ns with
  | nil => rfl
  | cons n ns ih => simp [ih]

end Node

end Ir

/-! ## What a template is lowered to -/

/-- Every alias stands for classes that are no references. -/
def AliasEnv.Plain (env : AliasEnv) : Prop := ∀ p ∈ env, ∀ t ∈ p.2, Ir.IsPlainClass t

variable {env : AliasEnv} {classes : List Text} {token : Text}

theorem AliasEnv.plain_ofBlock {b : Option AliasBlock}
    (h : ∀ k ∈ b, ∀ a ∈ k.aliases, IsAlias a) : (ofBlock b).Plain := by
  cases b with
  | none => simp [Plain, ofBlock]
  | some k =>
    intro p hp t ht
    obtain ⟨a, ha, rfl⟩ := List.mem_map.mp (List.mem_reverse.mp hp)
    obtain ⟨hne, hchars⟩ := (h k rfl a ha).classes t ht
    exact ⟨hne, hchars⟩

/-- A class token stands for plain classes. -/
theorem AliasEnv.Plain.expandToken (h : env.Plain) (hc : IsClass token) :
    ∀ t ∈ env.expandToken token, Ir.IsPlainClass t := by
  obtain ⟨d, s, rfl | rfl, hchars⟩ := hc
  · have hd : d ≠ '$' := by
      rintro rfl
      exact absurd (hchars '$' List.mem_cons_self) (by decide)
    rw [expandToken_literal hd]
    intro t ht
    obtain rfl := List.mem_singleton.mp ht
    exact ⟨by simp, hchars⟩
  · intro t ht
    rw [AliasEnv.expandToken] at ht
    cases hfound : (reference? ('$' :: d :: s)).bind fun name => List.lookup name env with
    | none => simp [hfound] at ht
    | some found =>
      rw [hfound, Option.getD_some] at ht
      obtain ⟨name, -, hname⟩ := Option.bind_eq_some_iff.mp hfound
      obtain ⟨before, after, henv, -⟩ := List.lookup_eq_some_iff.mp hname
      exact h (name, found) (by simp [henv]) t ht

theorem AliasEnv.Plain.expand (h : env.Plain) (hc : ∀ t ∈ classes, IsClass t) :
    ∀ t ∈ env.expand classes, Ir.IsPlainClass t := by
  intro t ht
  obtain ⟨token, htoken, ht⟩ := List.mem_flatMap.mp ht
  exact h.expandToken (hc token htoken) t ht

namespace Ir

variable {n : Offside.Node} {ns : List Offside.Node} {ps : List Part} {v : Text}

theorem static_consText {ks : List Node} (h : ∀ k ∈ ks, k.Static) :
    ∀ k ∈ consText v ks, k.Static := by
  rw [consText.eq_def]
  split
  · exact h
  · exact List.forall_mem_cons.mpr ⟨.text, (List.forall_mem_cons.mp h).2⟩
  · exact List.forall_mem_cons.mpr ⟨.text, h⟩

theorem static_ofPartList (h : ps.all Part.isLiteral = true) :
    ∀ k ∈ ofPartList ps, k.Static := by
  induction ps with
  | nil => simp [ofPartList]
  | cons p ps ih =>
    obtain ⟨hp, hps⟩ := Bool.and_eq_true_iff.mp (List.all_cons.symm.trans h)
    cases p with
    | literal v => exact static_consText (ih hps)
    | expression v span => cases hp

theorem static_lowerList (h : ∀ n ∈ ns, ∀ k ∈ lower env n, k.Static) :
    ∀ k ∈ lowerList env ns, k.Static := by
  induction ns with
  | nil => simp [lowerList]
  | cons n ns ih =>
    intro k hk
    rcases List.mem_append.mp hk with hk | hk
    · exact h n List.mem_cons_self k hk
    · exact ih (fun m hm => h m (List.mem_cons_of_mem n hm)) k hk

theorem static_element {name : Text} {children : List Offside.Node} {span : Option Span}
    (henv : env.Plain) (hname : IsName name) (hclasses : ∀ t ∈ classes, IsClass t)
    (h : ∀ k ∈ lowerList env children, k.Static) :
    ∀ k ∈ lower env (.element name classes children span), k.Static := by
  have hplain := henv.expand hclasses
  intro k hk
  rw [lower, Node.ofParts, Node.normalizeClasses_eq hplain] at hk
  obtain rfl := List.mem_singleton.mp hk
  exact .element hname hplain h

/-- A node that was read, and has no expressions in it, is lowered to static nodes. -/
theorem static_lower {P : List Part → Prop} (henv : env.Plain) (h : n.Stands P)
    (hstatic : n.isStatic = true) : ∀ k ∈ lower env n, k.Static := by
  induction h with
  | element hsel _ ih =>
    exact static_element henv hsel.isName hsel.areClasses
      (static_lowerList fun m hm => ih m hm (Offside.Node.isStatic_of_mem hstatic hm))
  | @led _ _ ps _ _ _ hname hclasses _ _ ih =>
    obtain ⟨hps, hrest⟩ := Bool.and_eq_true_iff.mp hstatic
    refine static_element henv hname hclasses (static_lowerList fun m hm => ?_)
    rcases List.mem_cons.mp hm with rfl | hm
    · exact static_ofPartList hps
    · exact ih m hm (Offside.Node.isStatic_of_mem hrest hm)
  | text _ => exact static_ofPartList hstatic
  | expression _ => cases hstatic
  | conditional _ _ _ _ _ => cases hstatic
  | loop _ _ => cases hstatic

/-- A template without props and expressions is lowered to static nodes. -/
theorem static_ofTemplate (s : Text) (h : (Template.read s).template.isStatic = true) :
    ∀ k ∈ ofTemplate (Template.read s).template, k.Static := by
  obtain ⟨hprops, hchildren⟩ := Bool.and_eq_true_iff.mp h
  rw [ofTemplate, Option.isNone_iff_eq_none.mp hprops]
  exact static_lowerList fun n hn =>
    static_lower (AliasEnv.plain_ofBlock (Template.headerStands_read s).aliases)
      (Template.stands_read s n hn) (Offside.Node.isStatic_of_mem hchildren hn)

end Ir

end Offside
