import Mathlib.Data.List.Basic
import Offside.Template.Outline

/-! Changing a tree at its open edge. The list `d` steps down is what `modifyAt` changes and nothing
else, so changes at one depth compose, and a deeper change is a change of the last node. -/
namespace Offside

section

variable {α : Type} (f g : α → α) (as : List α) (a : α)

@[simp] theorem onLast_concat : onLast f (as ++ [a]) = as ++ [f a] := by
  induction as with
  | nil => rfl
  | cons b as ih =>
    cases as with
    | nil => rfl
    | cons c as =>
      rw [List.cons_append, List.cons_append, onLast, ← List.cons_append, ih]
      rfl

theorem onLast_id : onLast id as = as := by
  rcases List.eq_nil_or_concat' as with rfl | ⟨front, a, rfl⟩
  · rfl
  · simp

theorem onLast_onLast : onLast f (onLast g as) = onLast (f ∘ g) as := by
  rcases List.eq_nil_or_concat' as with rfl | ⟨front, a, rfl⟩
  · rfl
  · simp

theorem getLast?_onLast : (onLast f as).getLast? = as.getLast?.map f := by
  rcases List.eq_nil_or_concat' as with rfl | ⟨front, a, rfl⟩
  · rfl
  · simp

end

namespace Node

variable {f g : List Node → List Node} {n : Node}

theorem mapBody_mapBody (f g : List Node → List Node) (n : Node) :
    (n.mapBody g).mapBody f = n.mapBody (f ∘ g) := by
  cases n with
  | conditional branches span =>
    simp only [mapBody, onLast_onLast]
    rfl
  | _ => rfl

theorem mapBody_id (n : Node) : n.mapBody id = n := by
  cases n with
  | conditional branches span =>
    have hb : Branch.mapBody (α := Node) id = id := rfl
    rw [mapBody, hb, onLast_id]
  | _ => rfl

theorem body?_mapBody (f : List Node → List Node) (n : Node) :
    (n.mapBody f).body? = n.body?.map f := by
  cases n with
  | conditional branches span =>
    simp only [mapBody, body?, getLast?_onLast, Option.map_map]
    rfl
  | _ => rfl

end Node

namespace Outline

variable {f g : List Node → List Node} {d e : Nat} {ns body : List Node}

theorem modifyAt_id (d : Nat) (ns : List Node) : modifyAt id d ns = ns := by
  induction d generalizing ns with
  | zero => rfl
  | succ d ih =>
    have hd : modifyAt id d = id := funext ih
    have hn : Node.mapBody id = id := funext Node.mapBody_id
    rw [modifyAt, hd, hn, onLast_id]

theorem modifyAt_modifyAt (f g : List Node → List Node) (d : Nat) (ns : List Node) :
    modifyAt f d (modifyAt g d ns) = modifyAt (f ∘ g) d ns := by
  induction d generalizing ns with
  | zero => rfl
  | succ d ih =>
    have hf : modifyAt f d ∘ modifyAt g d = modifyAt (f ∘ g) d := funext ih
    simp only [modifyAt]
    rw [onLast_onLast]
    congr 1
    funext n
    rw [Function.comp_apply, Node.mapBody_mapBody, hf]

theorem modifyAt_add (f : List Node → List Node) (d e : Nat) (ns : List Node) :
    modifyAt f (d + e) ns = modifyAt (modifyAt f e) d ns := by
  induction d generalizing ns with
  | zero => simp [modifyAt]
  | succ d ih =>
    have hf : modifyAt f (d + e) = modifyAt (modifyAt f e) d := funext ih
    rw [Nat.add_right_comm, modifyAt, modifyAt, hf]

/-- Growing the node that has just been put at the end is growing it first. -/
theorem modifyAt_succ_concat (f : List Node → List Node) (d : Nat) (n : Node) (ns : List Node) :
    modifyAt f (d + 1) (modifyAt (· ++ [n]) d ns) = modifyAt (· ++ [n.mapBody f]) d ns := by
  rw [modifyAt_add, modifyAt_modifyAt]
  congr 1
  funext ms
  simp [modifyAt]

/-- The list that has been changed is found where it was. -/
theorem listAt?_modifyAt (f : List Node → List Node) (d : Nat) (ns : List Node) :
    listAt? d (modifyAt f d ns) = (listAt? d ns).map f := by
  induction d generalizing ns with
  | zero => rfl
  | succ d ih =>
    simp only [modifyAt, listAt?, getLast?_onLast]
    cases ns.getLast? with
    | none => rfl
    | some n =>
      simp only [Option.map_some, Option.bind_eq_bind, Option.bind_some, Node.body?_mapBody]
      cases n.body? with
      | none => rfl
      | some body => simp [ih]

/-- Above the depth of a change, only the last node of each list is touched. -/
theorem listAt?_modifyAt_of_lt (f : List Node → List Node) (h : d < e) (ns : List Node) :
    listAt? d (modifyAt f e ns) =
      (listAt? d ns).map (onLast (Node.mapBody (modifyAt f (e - d - 1)))) := by
  have he : e = d + (e - d - 1 + 1) := by omega
  conv => lhs; rw [he, modifyAt_add, listAt?_modifyAt]
  rfl

theorem listAt?_add (d e : Nat) (ns : List Node) :
    listAt? (d + e) ns = (listAt? d ns).bind (listAt? e) := by
  induction d generalizing ns with
  | zero => rw [Nat.zero_add, listAt?, Option.bind_some]
  | succ d ih =>
    rw [Nat.add_right_comm, listAt?, listAt?]
    simp only [ih, Option.bind_eq_bind, Option.bind_assoc]

theorem listAt?_succ_eq_some (h : listAt? (d + 1) ns = some body) :
    ∃ front n inner, ns = front ++ [n] ∧ n.body? = some inner ∧ listAt? d inner = some body := by
  rw [listAt?] at h
  obtain ⟨n, hn, h⟩ := Option.bind_eq_some_iff.mp h
  obtain ⟨inner, hinner, h⟩ := Option.bind_eq_some_iff.mp h
  obtain ⟨front, hfront⟩ := List.getLast?_eq_some_iff.mp hn
  exact ⟨front, n, inner, hfront, hinner, h⟩

/-- What a change makes of the list that it changes is all that matters of it. -/
theorem modifyAt_congr (h : listAt? d ns = some body) (hfg : f body = g body) :
    modifyAt f d ns = modifyAt g d ns := by
  induction d generalizing ns with
  | zero =>
    obtain rfl := Option.some.inj h
    exact hfg
  | succ d ih =>
    obtain ⟨front, n, inner, rfl, hn, hinner⟩ := listAt?_succ_eq_some h
    have hinner := ih hinner
    rw [modifyAt, modifyAt, onLast_concat, onLast_concat]
    congr 2
    cases n with
    | element name classes children span =>
      obtain rfl := Option.some.inj hn
      exact congrArg (Node.element name classes · span) hinner
    | loop variableName iterable inner span =>
      obtain rfl := Option.some.inj hn
      exact congrArg (Node.loop variableName iterable · span) hinner
    | conditional branches span =>
      obtain ⟨b, hb, rfl⟩ := Option.map_eq_some_iff.mp hn
      obtain ⟨init, rfl⟩ := List.getLast?_eq_some_iff.mp hb
      simp only [Node.mapBody, onLast_concat, Branch.mapBody, hinner]
    | text | expression | foreign => cases hn

end Outline

end Offside
