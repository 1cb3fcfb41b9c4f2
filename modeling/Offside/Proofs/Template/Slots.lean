import Offside.Proofs.Template.Outline
import Offside.Proofs.Template.Standing
import Offside.Template.Ledger

/-!
The branches and loops of a tree, in the order in which they are opened. The list at the open edge
of a tree stands behind all slots but those inside it, and it fills at most the last of them, so a
change of the list changes nothing else.
-/
namespace Offside

variable {P : List Part → Prop} {ns ms body : List Node} {d k : Nat} {place : Option Nat}
  {front : List Slot} {holder : Option (Bool × Option Span)} {e : Entry} {opens : Bool}

namespace Node

mutual

/-- The branches and loops in a node, with what they are filled with by now. -/
def slots : Node → List Slot
  | .element _ _ children _ => slotsIn children
  | .conditional branches _ => slotsOf branches
  | .loop _ _ body span => ⟨true, span, !body.isEmpty⟩ :: slotsIn body
  | .text .. | .expression .. | .foreign .. => []

/-- The branches and loops in a list of nodes. -/
def slotsIn : List Node → List Slot
  | [] => []
  | n :: ns => n.slots ++ slotsIn ns

/-- The branches of a list, and the branches and loops inside them. -/
def slotsOf : List (Branch Node) → List Slot
  | [] => []
  | b :: bs => slotsAt b ++ slotsOf bs

/-- A branch, and the branches and loops inside it. -/
def slotsAt : Branch Node → List Slot
  | ⟨_, body, span⟩ => ⟨false, span, !body.isEmpty⟩ :: slotsIn body

end

@[simp] theorem slotsIn_nil : slotsIn [] = [] := by
  rw [slotsIn]

@[simp] theorem slotsIn_append (ns ms : List Node) :
    slotsIn (ns ++ ms) = slotsIn ns ++ slotsIn ms := by
  induction ns with
  | nil => simp
  | cons n ns ih => rw [List.cons_append, slotsIn, slotsIn, ih, List.append_assoc]

@[simp] theorem slotsIn_singleton (n : Node) : slotsIn [n] = n.slots := by
  rw [slotsIn, slotsIn_nil, List.append_nil]

@[simp] theorem slotsOf_append (bs cs : List (Branch Node)) :
    slotsOf (bs ++ cs) = slotsOf bs ++ slotsOf cs := by
  induction bs with
  | nil => rw [List.nil_append, slotsOf, List.nil_append]
  | cons b bs ih => rw [List.cons_append, slotsOf, slotsOf, ih, List.append_assoc]

@[simp] theorem slotsOf_singleton (b : Branch Node) : slotsOf [b] = slotsAt b := by
  rw [slotsOf, slotsOf, List.append_nil]

/-! ## Slots that stay empty -/

@[simp] theorem empties_append (isLoop : Bool) (qs rs : List Slot) :
    Slot.empties isLoop (qs ++ rs) = Slot.empties isLoop qs ++ Slot.empties isLoop rs :=
  List.filter_append ..

mutual

theorem emptyBranches_eq : ∀ n : Node, n.emptyBranches = (Slot.empties false n.slots).map Slot.span
  | .element _ _ children _ => by
    rw [emptyBranches, slots, emptyBranchesIn_eq]
  | .conditional branches _ => by
    rw [emptyBranches, slots, emptyBranchesOf_eq]
  | .loop _ _ body _ => by
    rw [emptyBranches, slots, emptyBranchesIn_eq]
    rfl
  | .text .. => by rw [emptyBranches, slots]; rfl
  | .expression .. => by rw [emptyBranches, slots]; rfl
  | .foreign .. => by rw [emptyBranches, slots]; rfl

theorem emptyBranchesIn_eq : ∀ ns : List Node,
    emptyBranchesIn ns = (Slot.empties false (slotsIn ns)).map Slot.span
  | [] => by rw [emptyBranchesIn, slotsIn]; rfl
  | n :: ns => by
    rw [emptyBranchesIn, slotsIn, empties_append, List.map_append, emptyBranches_eq n,
      emptyBranchesIn_eq ns]

theorem emptyBranchesOf_eq : ∀ bs : List (Branch Node),
    emptyBranchesOf bs = (Slot.empties false (slotsOf bs)).map Slot.span
  | [] => by rw [emptyBranchesOf, slotsOf]; rfl
  | b :: bs => by
    rw [emptyBranchesOf, slotsOf, empties_append, List.map_append, emptyBranchesAt_eq b,
      emptyBranchesOf_eq bs]

theorem emptyBranchesAt_eq : ∀ b : Branch Node,
    emptyBranchesAt b = (Slot.empties false (slotsAt b)).map Slot.span
  | ⟨_, body, span⟩ => by
    rw [emptyBranchesAt, slotsAt, emptyBranchesIn_eq body]
    cases body <;> rfl

end

mutual

theorem emptyLoops_eq : ∀ n : Node, n.emptyLoops = (Slot.empties true n.slots).map Slot.span
  | .element _ _ children _ => by
    rw [emptyLoops, slots, emptyLoopsIn_eq]
  | .conditional branches _ => by
    rw [emptyLoops, slots, emptyLoopsOf_eq]
  | .loop _ _ body _ => by
    rw [emptyLoops, slots, emptyLoopsIn_eq]
    cases body <;> rfl
  | .text .. => by rw [emptyLoops, slots]; rfl
  | .expression .. => by rw [emptyLoops, slots]; rfl
  | .foreign .. => by rw [emptyLoops, slots]; rfl

theorem emptyLoopsIn_eq : ∀ ns : List Node,
    emptyLoopsIn ns = (Slot.empties true (slotsIn ns)).map Slot.span
  | [] => by rw [emptyLoopsIn, slotsIn]; rfl
  | n :: ns => by
    rw [emptyLoopsIn, slotsIn, empties_append, List.map_append, emptyLoops_eq n,
      emptyLoopsIn_eq ns]

theorem emptyLoopsOf_eq : ∀ bs : List (Branch Node),
    emptyLoopsOf bs = (Slot.empties true (slotsOf bs)).map Slot.span
  | [] => by rw [emptyLoopsOf, slotsOf]; rfl
  | b :: bs => by
    rw [emptyLoopsOf, slotsOf, empties_append, List.map_append, emptyLoopsAt_eq b,
      emptyLoopsOf_eq bs]

theorem emptyLoopsAt_eq : ∀ b : Branch Node,
    emptyLoopsAt b = (Slot.empties true (slotsAt b)).map Slot.span
  | ⟨_, body, span⟩ => by
    rw [emptyLoopsAt, slotsAt, emptyLoopsIn_eq body]
    rfl

end

/-! ## What a line adds -/

theorem slotsIn_of_inlined (h : Inlined P body) : slotsIn body = [] := by
  cases h <;> simp [slots]

end Node

open Node

namespace Entry

def slots : Entry → List Slot
  | node n => n.slots
  | branch b => slotsAt b

end Entry

/-- The list can take the entry: a branch needs a conditional at the end. -/
def Entry.Joins (e : Entry) (ns : List Node) : Prop :=
  e.isBranch = true → ∃ rest branches span, ns = rest ++ [.conditional branches span]

theorem Entry.slotsIn_into (h : e.Joins ns) : slotsIn (e.into ns) = slotsIn ns ++ e.slots := by
  cases e with
  | node n => simp [Entry.into, Entry.slots]
  | branch b =>
    obtain ⟨rest, branches, span, rfl⟩ := h rfl
    simp [Entry.into, Entry.slots, Node.addBranch, Node.slots]

theorem Entry.into_ne_nil (h : e.Joins ns) : e.into ns ≠ [] := by
  cases e with
  | node n => simp [Entry.into]
  | branch b =>
    obtain ⟨rest, branches, span, rfl⟩ := h rfl
    simp [Entry.into]

/-- The slot of the branch or loop, if there is one, whose body is this list. -/
def slotOf (holder : Option (Bool × Option Span)) (ns : List Node) : List Slot :=
  match holder with
  | none => []
  | some (isLoop, span) => [⟨isLoop, span, !ns.isEmpty⟩]

theorem slotOf_eq (hns : ns ≠ []) (hms : ms ≠ []) : slotOf holder ns = slotOf holder ms := by
  rw [slotOf.eq_def, slotOf.eq_def, List.isEmpty_eq_false_iff.mpr hns,
    List.isEmpty_eq_false_iff.mpr hms]

theorem Node.exists_holder (n : Node) (holder : Option (Bool × Option Span)) {inner : List Node}
    (hbody : n.body? = some inner) (hslots : n.slots = slotOf holder inner)
    (hmap : ∀ f, (n.mapBody f).slots = slotOf holder (f inner) ++ slotsIn (f inner))
    (ns : List Node) : ∃ holder inner, Outline.listAt? 1 ((Entry.node n).into ns) = some inner ∧
      (Entry.node n).slots = slotOf holder inner ∧
      ∀ f, slotsIn (Outline.modifyAt f 1 ((Entry.node n).into ns)) =
        slotsIn ns ++ slotOf holder (f inner) ++ slotsIn (f inner) := by
  refine ⟨holder, inner, by simp [Outline.listAt?, Entry.into, hbody], hslots, fun f => ?_⟩
  simp [Outline.modifyAt, Entry.into, hmap]

/-- What deeper lines make of an entry: they change the list inside it, and the slot of its own. -/
theorem Entry.exists_holder (he : e.Stands P true) (h : e.Joins ns) :
    ∃ holder inner, Outline.listAt? 1 (e.into ns) = some inner ∧ e.slots = slotOf holder inner ∧
      ∀ f, slotsIn (Outline.modifyAt f 1 (e.into ns)) =
        slotsIn ns ++ slotOf holder (f inner) ++ slotsIn (f inner) := by
  have hempty : ∀ {b : Branch Node}, b.Stands P true → b.body = [] := by
    intro b hb
    refine hb.body.resolve_right ?_
    rintro ⟨hopens, -⟩
    cases hopens
  cases he with
  | @element name classes span _ =>
    refine Node.exists_holder (.element name classes [] span) none rfl ?_ (fun f => ?_) ns
    · simp [Node.slots, slotOf]
    · simp [Node.mapBody, Node.slots, slotOf]
  | @led name classes ps span span' _ _ _ =>
    refine Node.exists_holder (.element name classes [.text ps .inline span'] span) none rfl ?_
      (fun f => ?_) ns
    · simp [Node.slots, slotOf]
    · simp [Node.mapBody, Node.slots, slotOf]
  | @loop v i span _ =>
    refine Node.exists_holder (.loop v i [] span) (some (true, span)) rfl ?_ (fun f => ?_) ns
    · simp [Node.slots, slotOf]
    · simp [Node.mapBody, Node.slots, slotOf]
  | @conditional b _ span' hb _ =>
    obtain ⟨test, body, span⟩ := b
    obtain rfl : body = [] := hempty hb
    refine Node.exists_holder (.conditional [⟨test, [], span⟩] span') (some (false, span)) rfl ?_
      (fun f => ?_) ns
    · simp [Node.slots, slotsAt, slotOf]
    · simp [Node.mapBody, onLast, Branch.mapBody, Node.slots, slotsAt, slotOf]
  | @branch b _ hb =>
    obtain ⟨test, body, span⟩ := b
    obtain rfl : body = [] := hempty hb
    obtain ⟨rest, branches, span', rfl⟩ := h rfl
    refine ⟨some (false, span), [], ?_, by simp [Entry.slots, slotsAt, slotOf], fun f => ?_⟩
    · simp [Outline.listAt?, Entry.into, Node.addBranch, Node.body?]
    · simp [Outline.modifyAt, Entry.into, Node.addBranch, Node.mapBody, Branch.mapBody,
        Node.slots, slotsAt, slotOf]

/-! ## The list at the open edge -/

namespace Outline

/-- The list `d` steps down stands behind `front` and the slot at `place` that it fills, if it
fills one, and what is inside it comes last. So it is with any other list in its place. -/
structure Fills (ns : List Node) (d : Nat) (place : Option Nat) (front : List Slot)
    (holder : Option (Bool × Option Span)) (body : List Node) : Prop where
  list : listAt? d ns = some body
  place : place = holder.map fun _ => front.length
  slots : ∀ f, slotsIn (modifyAt f d ns) = front ++ slotOf holder (f body) ++ slotsIn (f body)

theorem fills_zero (ns : List Node) : Fills ns 0 none [] none ns where
  list := rfl
  place := rfl
  slots _ := rfl

theorem Fills.slotsIn_eq (h : Fills ns d place front holder body) :
    slotsIn ns = front ++ slotOf holder body ++ slotsIn body := by
  have hid := h.slots id
  rwa [modifyAt_id] at hid

/-- A list keeps its place while the tree grows at the list or below it. -/
theorem Fills.modifyAt (h : Fills ns k place front holder body) (hk : k ≤ d)
    (g : List Node → List Node) :
    Fills (modifyAt g d ns) k place front holder (Outline.modifyAt g (d - k) body) := by
  obtain ⟨j, rfl⟩ := Nat.exists_eq_add_of_le hk
  rw [Nat.add_sub_cancel_left, modifyAt_add]
  refine ⟨?_, h.place, fun f => ?_⟩
  · rw [listAt?_modifyAt, h.list]
    rfl
  · rw [modifyAt_modifyAt, h.slots]
    rfl

/-- The list inside an entry, which is at the end of the list that the entry has been put into. -/
theorem Fills.enter (h : Fills ns d place front holder body) (he : e.Stands P true)
    (hjoins : e.Joins body) : ∃ holder' inner,
      Fills (Outline.modifyAt e.into d ns) (d + 1)
        (if e.slots.isEmpty then none else some (front ++ slotOf holder (e.into body) ++
          slotsIn body).length) (front ++ slotOf holder (e.into body) ++ slotsIn body)
        holder' inner := by
  obtain ⟨holder', inner, hlist, hslots, hmap⟩ := Entry.exists_holder he hjoins
  have hfull : ∀ f, slotOf holder (Outline.modifyAt f 1 (e.into body)) =
      slotOf holder (e.into body) := by
    intro f
    have hne := Entry.into_ne_nil hjoins
    obtain ⟨init, n, hn⟩ := (List.eq_nil_or_concat' (e.into body)).resolve_left hne
    exact slotOf_eq (by simp [hn, Outline.modifyAt]) hne
  refine ⟨holder', inner, ?_, ?_, fun f => ?_⟩
  · rw [listAt?_add, listAt?_modifyAt, h.list]
    exact hlist
  · rw [hslots]
    cases holder' <;> rfl
  · rw [modifyAt_add, modifyAt_modifyAt, h.slots, Function.comp_apply, hfull, hmap]
    simp

end Outline

end Offside
