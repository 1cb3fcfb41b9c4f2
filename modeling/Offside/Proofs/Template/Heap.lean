import Offside.Proofs.Template.Outline
import Offside.Template.Builder

/-! A tree as it lies in memory: each list of it in a place of its own, in the order in which the
places are taken. A list at the open edge lies behind all that is closed, so what grows it leaves
everything else where it is. -/
namespace Offside

variable {r : Nat} {n : Node} {ns body : List Node} {b : Branch Node} {bs : List (Branch Node)}

/-! ## Places -/

namespace Node

mutual

def places : Node → Nat
  | .element _ _ children _ => placesIn children + 1
  | .conditional branches _ => placesOf branches + 1
  | .loop _ _ body _ => placesIn body + 1
  | .text .. | .expression .. | .foreign .. => 0

def placesIn : List Node → Nat
  | [] => 0
  | n :: ns => n.places + placesIn ns

def placesOf : List (Branch Node) → Nat
  | [] => 0
  | b :: bs => placesAt b + placesOf bs

def placesAt : Branch Node → Nat
  | ⟨_, body, _⟩ => placesIn body + 1

end

/-- A node as it lies in a list, if its own lists lie in a place and those behind it. -/
def cell (r : Nat) : Node → Cell
  | .element name classes _ span => .element name classes r span
  | .conditional _ span => .conditional r span
  | .loop variableName iterable _ span => .loop variableName iterable r span
  | n => .leaf n

/-- The nodes of a list, if what they hold lies in a place and those behind it. -/
def cellsIn (r : Nat) : List Node → List Cell
  | [] => []
  | n :: ns => n.cell r :: cellsIn (r + n.places) ns

/-- The branches of a conditional, if what they hold lies in a place and those behind it. -/
def cellsOf (r : Nat) : List (Branch Node) → List BranchCell
  | [] => []
  | b :: bs => ⟨b.test, r, b.span⟩ :: cellsOf (r + placesAt b) bs

mutual

/-- What a node puts in a place and those behind it. -/
def stored (r : Nat) : Node → Heap
  | .element _ _ children _ => .nodes (cellsIn (r + 1) children) :: storedIn (r + 1) children
  | .conditional branches _ => .branches (cellsOf (r + 1) branches) :: storedOf (r + 1) branches
  | .loop _ _ body _ => .nodes (cellsIn (r + 1) body) :: storedIn (r + 1) body
  | .text .. | .expression .. | .foreign .. => []

def storedIn (r : Nat) : List Node → Heap
  | [] => []
  | n :: ns => n.stored r ++ storedIn (r + n.places) ns

def storedOf (r : Nat) : List (Branch Node) → Heap
  | [] => []
  | b :: bs => storedAt r b ++ storedOf (r + placesAt b) bs

def storedAt (r : Nat) : Branch Node → Heap
  | ⟨_, body, _⟩ => .nodes (cellsIn (r + 1) body) :: storedIn (r + 1) body

end

/-- A list in a place, with all that its nodes hold behind it. -/
def layout (r : Nat) (ns : List Node) : Heap := .nodes (cellsIn (r + 1) ns) :: storedIn (r + 1) ns

theorem placesIn_append (ns ms : List Node) : placesIn (ns ++ ms) = placesIn ns + placesIn ms := by
  induction ns with
  | nil => simp [placesIn]
  | cons n ns ih => simp only [List.cons_append, placesIn, ih, Nat.add_assoc]

theorem placesOf_append (bs cs : List (Branch Node)) :
    placesOf (bs ++ cs) = placesOf bs + placesOf cs := by
  induction bs with
  | nil => simp [placesOf]
  | cons b bs ih => simp only [List.cons_append, placesOf, ih, Nat.add_assoc]

theorem cellsIn_append (ns ms : List Node) (r : Nat) :
    cellsIn r (ns ++ ms) = cellsIn r ns ++ cellsIn (r + placesIn ns) ms := by
  induction ns generalizing r with
  | nil => rfl
  | cons n ns ih => simp only [List.cons_append, cellsIn, placesIn, ih, Nat.add_assoc]

theorem cellsOf_append (bs cs : List (Branch Node)) (r : Nat) :
    cellsOf r (bs ++ cs) = cellsOf r bs ++ cellsOf (r + placesOf bs) cs := by
  induction bs generalizing r with
  | nil => rfl
  | cons b bs ih => simp only [List.cons_append, cellsOf, placesOf, ih, Nat.add_assoc]

theorem storedIn_append (ns ms : List Node) (r : Nat) :
    storedIn r (ns ++ ms) = storedIn r ns ++ storedIn (r + placesIn ns) ms := by
  induction ns generalizing r with
  | nil => simp [storedIn, placesIn]
  | cons n ns ih => simp only [List.cons_append, storedIn, placesIn, ih, Nat.add_assoc,
      List.append_assoc]

theorem storedOf_append (bs cs : List (Branch Node)) (r : Nat) :
    storedOf r (bs ++ cs) = storedOf r bs ++ storedOf (r + placesOf bs) cs := by
  induction bs generalizing r with
  | nil => simp [storedOf, placesOf]
  | cons b bs ih => simp only [List.cons_append, storedOf, placesOf, ih, Nat.add_assoc,
      List.append_assoc]

mutual

theorem length_stored (r : Nat) : ∀ n : Node, (n.stored r).length = n.places
  | .element _ _ children _ => by rw [stored, List.length_cons, length_storedIn, places]
  | .conditional branches _ => by rw [stored, List.length_cons, length_storedOf, places]
  | .loop _ _ body _ => by rw [stored, List.length_cons, length_storedIn, places]
  | .text .. | .expression .. | .foreign .. => rfl

theorem length_storedIn (r : Nat) : ∀ ns : List Node, (storedIn r ns).length = placesIn ns
  | [] => rfl
  | n :: ns => by rw [storedIn, List.length_append, length_stored, length_storedIn, placesIn]

theorem length_storedOf (r : Nat) :
    ∀ bs : List (Branch Node), (storedOf r bs).length = placesOf bs
  | [] => rfl
  | b :: bs => by rw [storedOf, List.length_append, length_storedAt, length_storedOf, placesOf]

theorem length_storedAt (r : Nat) : ∀ b : Branch Node, (storedAt r b).length = placesAt b
  | ⟨_, body, _⟩ => by rw [storedAt, List.length_cons, length_storedIn, placesAt]

end

theorem length_layout (r : Nat) (ns : List Node) : (layout r ns).length = placesIn ns + 1 := by
  rw [layout, List.length_cons, length_storedIn]

theorem layout_concat (r : Nat) (ns : List Node) (n : Node) :
    layout r (ns ++ [n]) = .nodes (cellsIn (r + 1) ns ++ [n.cell (r + 1 + placesIn ns)]) ::
      (storedIn (r + 1) ns ++ n.stored (r + 1 + placesIn ns)) := by
  simp [layout, cellsIn_append, storedIn_append, cellsIn, storedIn]

/-! ## The open edge -/

/-- The list that deeper lines go to lies behind all else that a node puts in memory. -/
theorem stored_mapBody (h : n.body? = some body) (r : Nat) :
    ∃ before : Heap, ∀ f,
      (n.mapBody f).stored r = before ++ layout (r + before.length) (f body) := by
  cases n with
  | element name classes children span =>
    obtain rfl := Option.some.inj h
    exact ⟨[], fun f => rfl⟩
  | loop variableName iterable inner span =>
    obtain rfl := Option.some.inj h
    exact ⟨[], fun f => rfl⟩
  | conditional branches span =>
    obtain ⟨b, hb, rfl⟩ := Option.map_eq_some_iff.mp h
    obtain ⟨init, rfl⟩ := List.getLast?_eq_some_iff.mp hb
    refine ⟨.branches (cellsOf (r + 1) (init ++ [b])) :: storedOf (r + 1) init, fun f => ?_⟩
    have hcells : ∀ q, cellsOf q (init ++ [Branch.mapBody f b]) = cellsOf q (init ++ [b]) :=
      fun q => by simp [cellsOf_append, cellsOf, Branch.mapBody]
    have hplace : r + 1 + placesOf init = r + (placesOf init + 1) := by omega
    rw [mapBody, onLast_concat, stored, hcells, storedOf_append, storedOf, storedOf,
      List.append_nil, List.length_cons, length_storedOf, hplace]
    rfl
  | text | expression | foreign => cases h

theorem cell_mapBody (f : List Node → List Node) (n : Node) (r : Nat) :
    (n.mapBody f).cell r = n.cell r := by
  cases n <;> rfl

end Node

namespace Outline

open Node

/-- The list some steps down the open edge lies behind all else. -/
theorem layout_modifyAt {d : Nat} (h : listAt? d ns = some body) (r : Nat) :
    ∃ before : Heap, ∀ f, layout r (modifyAt f d ns) =
      before ++ layout (r + before.length) (f body) := by
  induction d generalizing ns r with
  | zero =>
    obtain rfl := Option.some.inj h
    exact ⟨[], fun f => rfl⟩
  | succ d ih =>
    obtain ⟨front, n, inner, rfl, hn, hinner⟩ := listAt?_succ_eq_some h
    obtain ⟨outer, houter⟩ := stored_mapBody hn (r + 1 + placesIn front)
    obtain ⟨before, hbefore⟩ := ih hinner (r + 1 + placesIn front + outer.length)
    refine ⟨.nodes (cellsIn (r + 1) (front ++ [n])) :: storedIn (r + 1) front ++ outer ++ before,
      fun f => ?_⟩
    have hplace : r + 1 + placesIn front + outer.length + before.length =
        r + (Stored.nodes (cellsIn (r + 1) (front ++ [n])) :: storedIn (r + 1) front ++ outer ++
          before).length := by
      simp only [List.length_append, List.length_cons, length_storedIn]
      omega
    rw [modifyAt, onLast_concat, layout_concat, cell_mapBody, houter, hbefore, ← hplace]
    simp [cellsIn_append, cellsIn]

/-- The place of the list some steps down, which is what lies in front of it. -/
def LiesAt (ns : List Node) (d r : Nat) (body : List Node) : Prop :=
  listAt? d ns = some body ∧ r + placesIn body = placesIn ns

/-- The place of the branches of the conditional at the end of the list some steps down. -/
def BranchesAt (ns : List Node) (d r : Nat) (front : List Node) (bs : List (Branch Node))
    (span : Option Span) : Prop :=
  listAt? d ns = some (front ++ [.conditional bs span]) ∧ r + placesOf bs = placesIn ns

variable {d e k r : Nat} {front inner : List Node} {span : Option Span}

theorem LiesAt.exists_before (h : LiesAt ns d r body) : ∃ before : Heap, before.length = r ∧
    ∀ f, layout 0 (modifyAt f d ns) = before ++ layout r (f body) := by
  obtain ⟨hbody, hr⟩ := h
  obtain ⟨before, hbefore⟩ := layout_modifyAt hbody 0
  have hlayout := congrArg List.length (hbefore id)
  rw [modifyAt_id, List.length_append, length_layout, length_layout, id] at hlayout
  have hlength : before.length = r := by omega
  exact ⟨before, hlength, fun f => by rw [hbefore, hlength, Nat.zero_add]⟩

theorem LiesAt.layout_eq (h : LiesAt ns d r body) :
    ∃ before : Heap, before.length = r ∧ layout 0 ns = before ++ layout r body := by
  obtain ⟨before, hlength, hbefore⟩ := h.exists_before
  have hid := hbefore id
  rw [modifyAt_id] at hid
  exact ⟨before, hlength, hid⟩

theorem LiesAt.nodesAt? (h : LiesAt ns d r body) :
    (layout 0 ns).nodesAt? r = some (cellsIn (r + 1) body) := by
  obtain ⟨before, rfl, hlayout⟩ := h.layout_eq
  rw [hlayout, Heap.nodesAt?, List.getElem?_append_right (Nat.le_refl _), Nat.sub_self]
  rfl

theorem modify_append {α : Type} (before after : List α) (a : α) (f : α → α) :
    (before ++ a :: after).modify before.length f = before ++ f a :: after := by
  induction before with
  | nil => rfl
  | cons b before ih => exact congrArg (b :: ·) ih

/-- Putting a node at the end of the list in a place, with what it holds behind everything, makes
it the last node of that list. -/
theorem LiesAt.layout_add (h : LiesAt ns d r body) (n : Node) :
    (layout 0 ns ++ n.stored (placesIn ns + 1)).modify r
      (Stored.append (n.cell (placesIn ns + 1))) = layout 0 (add d n ns) := by
  obtain ⟨before, hlength, hbefore⟩ := h.exists_before
  have hid := hbefore id
  have hnext : r + 1 + placesIn body = placesIn ns + 1 := by
    have := h.2
    omega
  rw [modifyAt_id] at hid
  rw [add, hbefore, layout_concat, hid, hnext, id, layout, List.append_assoc, List.cons_append,
    ← hlength, modify_append]
  rfl

/-- Branches lie behind whatever precedes them, and new ones are put behind them. -/
theorem BranchesAt.exists_before (h : BranchesAt ns d r front bs span) :
    ∃ before : Heap, before.length = r ∧ ∀ f bs',
      f (front ++ [.conditional bs span]) = front ++ [.conditional bs' span] →
        layout 0 (modifyAt f d ns) =
          before ++ .branches (cellsOf (r + 1) bs') :: storedOf (r + 1) bs' := by
  obtain ⟨hbody, hr⟩ := h
  obtain ⟨before, hbefore⟩ := layout_modifyAt hbody 0
  have hlayout := congrArg List.length (hbefore id)
  simp only [modifyAt_id, List.length_append, length_layout, id, placesIn_append, placesIn,
    places] at hlayout
  have hplace : 0 + before.length + 1 + placesIn front = r := by omega
  refine ⟨before ++ .nodes (cellsIn (0 + before.length + 1) front ++ [.conditional r span]) ::
    storedIn (0 + before.length + 1) front, ?_, fun f bs' hf => ?_⟩
  · rw [List.length_append, List.length_cons, length_storedIn]
    omega
  · rw [hbefore, hf, layout_concat, hplace, cell, stored]
    simp

theorem BranchesAt.branchesAt? (h : BranchesAt ns d r front bs span) :
    (layout 0 ns).branchesAt? r = some (cellsOf (r + 1) bs) := by
  obtain ⟨before, rfl, hbefore⟩ := h.exists_before
  have hid := hbefore id bs rfl
  rw [modifyAt_id] at hid
  rw [hid, Heap.branchesAt?, List.getElem?_append_right (Nat.le_refl _), Nat.sub_self]
  rfl

/-- Putting a branch at the end of the branches in a place, with its body behind everything, makes
it the last branch of that conditional. -/
theorem BranchesAt.layout_addBranch (h : BranchesAt ns d r front bs span) (b : Branch Node) :
    (layout 0 ns ++ storedAt (placesIn ns + 1) b).modify r
      (Stored.appendBranch ⟨b.test, placesIn ns + 1, b.span⟩) = layout 0 (addBranch d b ns) := by
  obtain ⟨before, hlength, hbefore⟩ := h.exists_before
  have hid := hbefore id bs rfl
  have hnext : r + 1 + placesOf bs = placesIn ns + 1 := by
    have := h.2
    omega
  rw [modifyAt_id] at hid
  rw [addBranch, hbefore _ (bs ++ [b]) (by rw [onLast_concat, Node.addBranch]), hid,
    List.append_assoc, List.cons_append, ← hlength, modify_append, cellsOf_append, storedOf_append,
    hlength, hnext]
  simp [Stored.appendBranch, cellsOf, storedOf]

/-- The list that the last node of a list holds is the next one down the open edge. -/
theorem LiesAt.bodyOf? {q : Nat} (h : LiesAt ns d r (front ++ [n])) (hn : n.body? = some body)
    (hq : q + placesIn body = placesIn ns) :
    (layout 0 ns).bodyOf? (n.cell (r + 1 + placesIn front)) = some q := by
  obtain ⟨hlist, hr⟩ := h
  simp only [placesIn_append, placesIn] at hr
  cases n with
  | element name classes children span =>
    obtain rfl := Option.some.inj hn
    rw [places] at hr
    have hplace : r + 1 + placesIn front = q := by omega
    rw [hplace]
    rfl
  | loop variableName iterable inner span =>
    obtain rfl := Option.some.inj hn
    rw [places] at hr
    have hplace : r + 1 + placesIn front = q := by omega
    rw [hplace]
    rfl
  | conditional branches span =>
    obtain ⟨b, hb, rfl⟩ := Option.map_eq_some_iff.mp hn
    obtain ⟨init, rfl⟩ := List.getLast?_eq_some_iff.mp hb
    have hplaces : placesAt b = placesIn b.body + 1 := placesAt.eq_def b
    simp only [places, placesOf_append, placesOf, hplaces] at hr
    have hbranches : BranchesAt ns d (r + 1 + placesIn front) front (init ++ [b]) span := by
      refine ⟨hlist, ?_⟩
      simp only [placesOf_append, placesOf, hplaces]
      omega
    have hplace : r + 1 + placesIn front + 1 + placesOf init = q := by omega
    rw [cell, Heap.bodyOf?, hbranches.branchesAt?, cellsOf_append, hplace]
    simp [cellsOf]
  | text | expression | foreign => cases hn

/-! ## Growing -/

theorem placesIn_modifyAt (h : listAt? d ns = some body) (f : List Node → List Node) :
    placesIn (modifyAt f d ns) + placesIn body = placesIn ns + placesIn (f body) := by
  obtain ⟨before, hbefore⟩ := layout_modifyAt h 0
  have hnew := congrArg List.length (hbefore f)
  have hold := congrArg List.length (hbefore id)
  simp only [modifyAt_id, List.length_append, length_layout, id] at hnew hold
  omega

/-- A list at the open edge stays where it is when a list at the open edge below it changes. -/
theorem LiesAt.modifyAt (h : LiesAt ns d r body) (hinner : listAt? e body = some inner)
    (f : List Node → List Node) :
    LiesAt (modifyAt f (d + e) ns) d r (Outline.modifyAt f e body) := by
  obtain ⟨hbody, hr⟩ := h
  have hwhole : listAt? (d + e) ns = some inner := by
    rw [listAt?_add, hbody, Option.bind_some, hinner]
  have hlarge := placesIn_modifyAt hwhole f
  have hsmall := placesIn_modifyAt hinner f
  refine ⟨?_, by omega⟩
  rw [modifyAt_add, listAt?_modifyAt, hbody]
  rfl

/-- So do the branches of a conditional above the change. -/
theorem BranchesAt.modifyAt (h : BranchesAt ns d r front bs span)
    (hinner : listAt? (d + (e + 1)) ns = some inner) (f : List Node → List Node) :
    ∃ bs', BranchesAt (modifyAt f (d + (e + 1)) ns) d r front bs' span := by
  obtain ⟨hbody, hr⟩ := h
  have hlast : Outline.modifyAt f (e + 1) (front ++ [.conditional bs span]) =
      front ++ [.conditional (onLast (Branch.mapBody (Outline.modifyAt f e)) bs) span] := by
    rw [Outline.modifyAt, onLast_concat]
    rfl
  have hlarge := placesIn_modifyAt hinner f
  rw [listAt?_add, hbody, Option.bind_some] at hinner
  have hsmall := placesIn_modifyAt hinner f
  rw [hlast] at hsmall
  simp only [placesIn_append, placesIn, places] at hsmall
  refine ⟨onLast (Branch.mapBody (Outline.modifyAt f e)) bs, ?_, by omega⟩
  rw [modifyAt_add, listAt?_modifyAt, hbody]
  exact congrArg some hlast

theorem LiesAt.grow (h : LiesAt ns d r body) (hk : listAt? k ns = some inner) (hd : d ≤ k)
    (f : List Node → List Node) : ∃ body', LiesAt (Outline.modifyAt f k ns) d r body' := by
  obtain ⟨e, rfl⟩ := Nat.exists_eq_add_of_le hd
  rw [listAt?_add, h.1, Option.bind_some] at hk
  exact ⟨_, h.modifyAt hk f⟩

theorem BranchesAt.grow (h : BranchesAt ns d r front bs span) (hk : listAt? k ns = some inner)
    (hd : d < k) (f : List Node → List Node) :
    ∃ bs', BranchesAt (Outline.modifyAt f k ns) d r front bs' span := by
  obtain ⟨e, rfl⟩ := Nat.exists_eq_add_of_lt hd
  exact h.modifyAt hk f

/-- A new branch is behind the others of its conditional. -/
theorem BranchesAt.addBranch (h : BranchesAt ns d r front bs span) (b : Branch Node) :
    BranchesAt (Outline.addBranch d b ns) d r front (bs ++ [b]) span := by
  obtain ⟨hbody, hr⟩ := h
  have hlast : onLast (Node.addBranch b) (front ++ [.conditional bs span]) =
      front ++ [.conditional (bs ++ [b]) span] := by
    rw [onLast_concat, Node.addBranch]
  have hsize := placesIn_modifyAt hbody (onLast (Node.addBranch b))
  simp only [hlast, placesIn_append, placesIn, places, placesOf_append] at hsize
  refine ⟨?_, ?_⟩
  · rw [Outline.addBranch, listAt?_modifyAt, hbody, Option.map_some, hlast]
  · rw [Outline.addBranch, placesOf_append]
    omega

/-- The list that a new node holds has the first place that it takes, if it takes no other. -/
theorem LiesAt.add (h : LiesAt ns d r body) (hn : n.body? = some inner)
    (hplaces : n.places = placesIn inner + 1) :
    LiesAt (Outline.add d n ns) (d + 1) (placesIn ns + 1) inner := by
  have hsize := placesIn_modifyAt h.1 (· ++ [n])
  simp only [placesIn_append, placesIn] at hsize
  refine ⟨?_, by rw [Outline.add]; omega⟩
  rw [Outline.add, listAt?_add, listAt?_modifyAt, h.1]
  simp [listAt?, hn]

/-- The branches of a new conditional have the first place that it takes, if it has none. -/
theorem LiesAt.branchesAt_add (h : LiesAt ns d r body) (span : Option Span) :
    BranchesAt (Outline.add d (.conditional [] span) ns) d (placesIn ns + 1) body [] span := by
  have hsize := placesIn_modifyAt h.1 (· ++ [.conditional [] span])
  simp only [placesIn_append, placesIn, places, placesOf] at hsize
  refine ⟨?_, by rw [Outline.add, placesOf]; omega⟩
  rw [Outline.add, listAt?_modifyAt, h.1, Option.map_some]

/-- The body of a new branch has the place behind everything, if it is empty. -/
theorem BranchesAt.liesAt_addBranch (h : BranchesAt ns d r front bs span) (test : Option Text)
    (sp : Option Span) :
    LiesAt (Outline.addBranch d ⟨test, [], sp⟩ ns) (d + 1) (placesIn ns + 1) [] := by
  obtain ⟨hbody, hr⟩ := h.addBranch ⟨test, [], sp⟩
  have hr' := h.2
  simp only [placesOf_append, placesOf, placesAt, placesIn] at hr
  refine ⟨?_, by simp only [placesIn]; omega⟩
  rw [listAt?_add, hbody]
  simp [listAt?, Node.body?]

/-- A node that is put into a new branch could have been put there before. -/
theorem BranchesAt.add_addBranch (h : BranchesAt ns d r front bs span) (test : Option Text)
    (sp : Option Span) (n : Node) :
    Outline.add (d + 1) n (Outline.addBranch d ⟨test, [], sp⟩ ns) =
      Outline.addBranch d ⟨test, [n], sp⟩ ns := by
  rw [Outline.add, Outline.addBranch, modifyAt_add, modifyAt_modifyAt, Outline.addBranch]
  refine modifyAt_congr h.1 ?_
  simp [Outline.modifyAt, Node.addBranch, Node.mapBody, Branch.mapBody]

end Outline

end Offside
