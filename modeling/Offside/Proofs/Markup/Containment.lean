import Mathlib.Data.List.Forall2
import Mathlib.Data.List.Nodup
import Offside.Proofs.Ir.Comment
import Offside.Proofs.Markup.Lowers
import Offside.Proofs.Text.Words

/-! Markup where only text can stand is contained: whatever a comment takes the place of is warned
about exactly once, and in the order of the places. No comment ends early. -/
namespace Offside.Markup

/-! ## Warnings about places -/

section Enumerates

variable {ι α β σ : Type} {before : ι → ι → Prop} {r : ι → Text → Prop} {ws ws' : List Text}

/-- The warnings are about the places that a relation has, one about each, and in their order. -/
def Enumerates (before : ι → ι → Prop) (r : ι → Text → Prop) (ws : List Text) : Prop :=
  ∃ places : List ι, places.Pairwise before ∧ (∀ p w, r p w → p ∈ places) ∧
    List.Forall₂ r places ws

theorem enumerates_nil (h : ∀ p w, ¬ r p w) : Enumerates before r [] :=
  ⟨[], .nil, fun p w hp => (h p w hp).elim, .nil⟩

theorem enumerates_singleton {p : ι} {w : Text} (h : r p w) (hone : ∀ q v, r q v → q = p) :
    Enumerates before r [w] :=
  ⟨[p], List.pairwise_singleton before p, fun q v hq => List.mem_singleton.mpr (hone q v hq),
    .cons h .nil⟩

/-- Places of two sorts, those of one before those of the other. -/
theorem Enumerates.join {before₁ : α → α → Prop} {before₂ : β → β → Prop} {r₁ : α → Text → Prop}
    {r₂ : β → Text → Prop} {f : α → ι} {g : β → ι} (h₁ : Enumerates before₁ r₁ ws)
    (h₂ : Enumerates before₂ r₂ ws') (hf : ∀ a w, r₁ a w → r (f a) w)
    (hg : ∀ b w, r₂ b w → r (g b) w)
    (hall : ∀ p w, r p w → (∃ a, r₁ a w ∧ p = f a) ∨ ∃ b, r₂ b w ∧ p = g b)
    (hbefore₁ : ∀ a a', before₁ a a' → before (f a) (f a'))
    (hbefore₂ : ∀ b b', before₂ b b' → before (g b) (g b')) (hbefore : ∀ a b, before (f a) (g b)) :
    Enumerates before r (ws ++ ws') := by
  obtain ⟨as, has, hmem₁, hforall₁⟩ := h₁
  obtain ⟨bs, hbs, hmem₂, hforall₂⟩ := h₂
  refine ⟨as.map f ++ bs.map g, ?_, ?_, ?_⟩
  · rw [List.pairwise_append]
    refine ⟨List.Pairwise.map f (fun a a' => hbefore₁ a a') has,
      List.Pairwise.map g (fun b b' => hbefore₂ b b') hbs, ?_⟩
    intro p hp q hq
    obtain ⟨a, -, rfl⟩ := List.mem_map.mp hp
    obtain ⟨b, -, rfl⟩ := List.mem_map.mp hq
    exact hbefore a b
  · intro p w hp
    rcases hall p w hp with ⟨a, ha, rfl⟩ | ⟨b, hb, rfl⟩
    · exact List.mem_append_left _ (List.mem_map_of_mem (hmem₁ a w ha))
    · exact List.mem_append_right _ (List.mem_map_of_mem (hmem₂ b w hb))
  · refine List.rel_append ?_ ?_
    · exact List.forall₂_map_left_iff.mpr (hforall₁.imp fun a w => hf a w)
    · exact List.forall₂_map_left_iff.mpr (hforall₂.imp fun b w => hg b w)

/-- A place in one of the nodes of a list. -/
def At (r : Node → σ → Text → Prop) (ns : List Node) (p : Nat × σ) (w : Text) : Prop :=
  ∃ n, ns[p.1]? = some n ∧ r n p.2 w

/-- The places of a node come before those of the nodes behind it. -/
theorem Enumerates.at_cons {before : σ → σ → Prop} {r : Node → σ → Text → Prop} {n : Node}
    {ns : List Node} (hns : Enumerates (Prod.Lex (· < ·) before) (At r ns) ws')
    (hn : Enumerates before (r n) ws) :
    Enumerates (Prod.Lex (· < ·) before) (At r (n :: ns)) (ws ++ ws') := by
  refine hn.join (f := fun s => (0, s)) (g := fun p => (p.1 + 1, p.2)) hns ?_ ?_ ?_ ?_ ?_ ?_
  · exact fun s w hs => ⟨n, rfl, hs⟩
  · exact fun p w hp => hp
  · rintro ⟨i, s⟩ w ⟨m, hm, hs⟩
    cases i with
    | zero =>
      obtain rfl := Option.some.inj hm
      exact Or.inl ⟨s, hs, rfl⟩
    | succ i => exact Or.inr ⟨(i, s), ⟨m, hm, hs⟩, rfl⟩
  · exact fun s t h => .right 0 h
  · rintro _ _ (⟨_, _, h⟩ | ⟨i, h⟩)
    · exact .left _ _ (Nat.succ_lt_succ h)
    · exact .right _ h
  · exact fun s p => .left _ _ (Nat.succ_pos p.1)

theorem Enumerates.at_cons_of_not {before : σ → σ → Prop} {r : Node → σ → Text → Prop} {n : Node}
    {ns : List Node} (hns : Enumerates (Prod.Lex (· < ·) before) (At r ns) ws)
    (hn : ∀ s w, ¬ r n s w) : Enumerates (Prod.Lex (· < ·) before) (At r (n :: ns)) ws :=
  hns.at_cons (enumerates_nil hn)

end Enumerates

/-! ## The places of comments -/

/-- A spot in a node: the node itself, a node in its tag, or a spot in a node of its content. -/
inductive Spot
  | self
  | tag (j : Nat)
  | content (i : Nat) (s : Spot)

/-- The content of an element comes before its attributes. -/
inductive Spot.Before : Spot → Spot → Prop
  | content {i j : Nat} {s t : Spot} : i < j → Before (.content i s) (.content j t)
  | within {i : Nat} {s t : Spot} : Before s t → Before (.content i s) (.content i t)
  | contentTag {i j : Nat} {s : Spot} : Before (.content i s) (.tag j)
  | tag {i j : Nat} : i < j → Before (.tag i) (.tag j)

/-- A place among nodes side by side: which of them, and the spot in it. -/
abbrev Place := Nat × Spot

/-- What comes first among nodes side by side. -/
def Place.Before : Place → Place → Prop := Prod.Lex (· < ·) Spot.Before

variable {doc : Text} {n : Node} {ns run tag : List Node} {ks : List Ir.Node}
  {as : List Ir.Attribute} {ws ws' : List Text} {w : Text} {s : Spot}

/-- What stands between the tags of an element. No other node has tags around its content. -/
def Node.inner (n : Node) : List Node := if n.kind = .element then n.content else []

/-- A comment takes the place of what is at a spot of a node, and this is warned about. What is
inside that is not looked at any more. -/
inductive ReplacedIn (doc : Text) : Node → Spot → Text → Prop
  | self {n : Node} {c w : Text} : ReplacedChild doc n c w → ReplacedIn doc n .self w
  | tag {n a : Node} {j : Nat} {c w : Text} : n.tag[j]? = some a → ReplacedAttribute doc a c w →
      ReplacedIn doc n (.tag j) w
  | content {n m : Node} {i : Nat} {s : Spot} {w : Text} : n.inner[i]? = some m →
      ReplacedIn doc m s w → ReplacedIn doc n (.content i s) w

/-- A comment takes a place among nodes side by side, and this is warned about. -/
def ReplacedAt (doc : Text) : List Node → Place → Text → Prop := At (ReplacedIn doc)

theorem Spot.Before.ne {s t : Spot} (h : s.Before t) : s ≠ t := by
  induction h with
  | content hlt =>
    rintro ⟨⟩
    exact Nat.lt_irrefl _ hlt
  | within _ ih =>
    rintro ⟨⟩
    exact ih rfl
  | contentTag => rintro ⟨⟩
  | tag hlt =>
    rintro ⟨⟩
    exact Nat.lt_irrefl _ hlt

theorem Place.Before.ne {p q : Place} (h : p.Before q) : p ≠ q := by
  rcases h with ⟨_, _, hlt⟩ | ⟨_, hbefore⟩
  · rintro ⟨⟩
    exact Nat.lt_irrefl _ hlt
  · rintro ⟨⟩
    exact hbefore.ne rfl

/-! ## The comments -/

theorem head?_guardComment (s : Text) : (guardComment s).head? = s.head? := by
  fun_cases guardComment s <;> rfl

/-- No comment ends in a guarded text. -/
theorem unclosed_guardComment (s : Text) : Ir.Unclosed (guardComment s) := by
  fun_induction guardComment s with
  | case1 => exact .nil
  | case2 => exact .singleton _
  | case3 s ih =>
    -- the space in front of the slash keeps the two apart
    refine List.isChain_cons.mpr ⟨by simp, List.isChain_cons.mpr ⟨by simp, ?_⟩⟩
    exact List.isChain_cons.mpr ⟨by simp, ih⟩
  | case4 c s hlast hpair ih =>
    refine List.isChain_cons.mpr ⟨?_, ih⟩
    rintro d hd ⟨rfl, rfl⟩
    rw [head?_guardComment] at hd
    obtain ⟨s', rfl⟩ := List.head?_eq_some_iff.mp hd
    exact hpair s' rfl rfl

theorem ink_guardComment (s : Text) : Text.ink (guardComment s) = Text.ink s := by
  fun_induction guardComment s with
  | case1 => rfl
  | case2 => rfl
  | case3 s ih => simpa [Text.ink, Text.isBlank] using ih
  | case4 c s _ _ ih =>
    rw [← List.singleton_append, Text.ink_append, ih, ← Text.ink_append, List.singleton_append]

theorem getLast?_guardComment (s : Text) : (guardComment s).getLast? = s.getLast? := by
  fun_induction guardComment s with
  | case1 => rfl
  | case2 => rfl
  | case3 s ih => simp [List.getLast?_cons, ih]
  | case4 c s _ _ ih => rw [List.getLast?_cons, List.getLast?_cons, ih]

theorem mem_guardComment {s : Text} {c : Char} (h : c ∈ guardComment s) : c ∈ s ∨ c = ' ' := by
  fun_induction guardComment s with
  | case1 => exact Or.inl h
  | case2 => exact Or.inl h
  | case3 s ih =>
    simp only [List.mem_cons] at h ⊢
    tauto
  | case4 c s _ _ ih =>
    simp only [List.mem_cons] at h ⊢
    tauto

/-- The only space that is put in stands between two signs. -/
theorem spaced_guardComment {s : Text} (h : Text.Spaced s) : Text.Spaced (guardComment s) where
  ne_nil hnil := by
    have hhead := head?_guardComment s
    rw [hnil] at hhead
    exact h.ne_nil (List.head?_eq_none_iff.mp hhead.symm)
  starts := by
    rw [Text.StartsSolid, head?_guardComment]
    exact h.starts
  ends := by
    rw [Text.EndsSolid, getLast?_guardComment]
    exact h.ends
  space c hc hblank := by
    rcases mem_guardComment hc with hc | rfl
    · exact h.space c hc hblank
    · rfl
  single := by
    have hsingle := h.single
    clear h
    fun_induction guardComment s with
    | case1 => exact .nil
    | case2 => exact .singleton _
    | case3 s ih =>
      refine List.isChain_cons_cons.mpr ⟨by decide, List.isChain_cons_cons.mpr ⟨by decide, ?_⟩⟩
      exact List.isChain_cons.mpr ⟨by simp [Text.isBlank], ih hsingle.tail.tail⟩
    | case4 c s _ _ ih =>
      refine List.isChain_cons.mpr ⟨?_, ih hsingle.tail⟩
      rw [head?_guardComment]
      exact (List.isChain_cons.mp hsingle).1

/-- A preview has all ink of the text on one line, without the end of a comment. If that is more
than eighty characters, it is cut to eighty, the last of them a sign that it was cut. -/
theorem exists_preview (s : Text) : ∃ line, Text.ink line = Text.ink s ∧
    (line ≠ [] → Text.Spaced line) ∧ Ir.Unclosed line ∧
      preview s = (if line.length ≤ 80 then line else line.take 79 ++ ['…']) ∧
        (preview s).length ≤ 80 := by
  have hpreview : preview s = if (guardComment (Text.squeeze s)).length ≤ 80
      then guardComment (Text.squeeze s)
      else (guardComment (Text.squeeze s)).take 79 ++ ['…'] := by
    rw [preview, previewLength]
    split
    · next hlong => rw [if_neg (by omega)]
    · next hshort => rw [if_pos (by omega)]
  refine ⟨guardComment (Text.squeeze s), ?_, ?_, unclosed_guardComment _, hpreview, ?_⟩
  · rw [ink_guardComment, Text.ink_squeeze]
  · intro hne
    refine spaced_guardComment (Text.spaced_squeeze ?_)
    rintro hnil
    exact hne (by rw [hnil, guardComment])
  · rw [hpreview]
    split
    · assumption
    · simp only [List.length_append, List.length_take, List.length_singleton]
      omega

theorem unclosed_preview (s : Text) : Ir.Unclosed (preview s) := by
  obtain ⟨line, -, -, hline, hpreview, -⟩ := exists_preview s
  rw [hpreview]
  split
  · exact hline
  · rw [Ir.unclosed_append_right (by decide)]
    exact hline.prefix (List.take_prefix _ _)

theorem isComment_comment {front body : Text} (hfront : '*' ∉ front) (hbody : Ir.Unclosed body) :
    Ir.IsComment (comment (front ++ body)) := by
  have henclosed : comment (front ++ body) = Ir.enclosed (front ++ body) := rfl
  rw [henclosed, Ir.isComment_enclosed, Ir.unclosed_append_left hfront]
  exact hbody

/-- The name of a kind with the end of a comment in it would end this one. -/
theorem ReplacedChild.isComment {c : Text} (h : ReplacedChild doc n c w)
    (hlabel : ¬ ['*', '/'] <:+: n.kind.label) : Ir.IsComment c := by
  cases h with
  | nested _ _ => exact isComment_comment (by decide) (unclosed_preview _)
  | unsupported _ => exact isComment_comment (by decide) (Ir.unclosed_iff.mpr hlabel)

theorem ReplacedAttribute.isComment {c : Text} (h : ReplacedAttribute doc n c w) :
    Ir.IsComment c := by
  cases h <;> exact isComment_comment (by decide) (unclosed_preview _)

/-! ## The warnings -/

/-- What is kept is not replaced. -/
theorem KeptAttribute.not_replaced {a : Ir.Attribute} {c : Text} (h : KeptAttribute doc n a) :
    ¬ ReplacedAttribute doc n c w := by
  intro hreplaced
  have hsame := h.lowerTagChild?_eq.symm.trans hreplaced.lowerTagChild?_eq
  cases congrArg (Option.map Lowered.warnings) hsame

/-- The warnings about a tag are about the attributes that are replaced. -/
theorem LowersTag.enumerates (h : LowersTag doc tag as ws) :
    Enumerates (Prod.Lex (· < ·) fun _ _ => False)
      (At (fun a (_ : Unit) w => ∃ c, ReplacedAttribute doc a c w) tag) ws := by
  induction h with
  | nil =>
    refine enumerates_nil ?_
    rintro p w ⟨a, ha, -⟩
    cases ha
  | @other n _ _ _ hattribute hexpression _ ih =>
    refine ih.at_cons_of_not ?_
    rintro _ w ⟨c, hreplaced⟩
    have hlower := hreplaced.lowerTagChild?_eq
    simp [lowerTagChild?, hattribute, hexpression] at hlower
  | kept hkept _ ih =>
    refine ih.at_cons_of_not ?_
    rintro _ w ⟨c, hreplaced⟩
    exact hkept.not_replaced hreplaced
  | replaced hreplaced _ ih =>
    exact ih.at_cons (enumerates_singleton (p := ()) ⟨_, hreplaced⟩ fun _ _ _ => rfl)

/-- Only tags have attributes in them and only elements have content. -/
theorem ReplacedIn.eq_self (h : ReplacedIn doc n s w) (helement : n.kind ≠ .element)
    (htag : n.kind ≠ .selfClosing) : s = .self ∧ ∃ c, ReplacedChild doc n c w := by
  cases h with
  | self hreplaced => exact ⟨rfl, _, hreplaced⟩
  | tag ha _ =>
    have hnil : n.tag = [] := by
      rw [Node.tag]
      split <;> simp_all
    rw [hnil] at ha
    cases ha
  | content hm _ =>
    rw [Node.inner, if_neg helement] at hm
    cases hm

theorem not_replacedChild_of_isContent {c : Text} (hcontent : n.kind.isContent = true)
    (hmarkup : n.kind = .expression → ¬ n.HoldsMarkup) : ¬ ReplacedChild doc n c w := by
  rintro (⟨hkind, hholds⟩ | hkind)
  · exact hmarkup hkind hholds
  · rw [hcontent] at hkind
    cases hkind

/-- A text, a reference, or an expression that is kept. -/
theorem not_replacedIn_of_isContent (hcontent : n.kind.isContent = true)
    (helement : n.kind ≠ .element) (htag : n.kind ≠ .selfClosing)
    (hmarkup : n.kind = .expression → ¬ n.HoldsMarkup) (s : Spot) (w : Text) :
    ¬ ReplacedIn doc n s w := by
  intro h
  obtain ⟨-, c, hreplaced⟩ := h.eq_self helement htag
  exact not_replacedChild_of_isContent hcontent hmarkup hreplaced

theorem not_replacedIn_of_isTextual (h : n.kind.isTextual = true) (s : Spot) (w : Text) :
    ¬ ReplacedIn doc n s w := by
  refine not_replacedIn_of_isContent ?_ ?_ ?_ ?_ s w <;>
    cases hkind : n.kind <;> simp_all [Kind.isTextual, Kind.isContent]

/-- The warnings about an element are those about its content and those about its attributes. -/
theorem enumerates_element (hkind : n.kind = .element ∨ n.kind = .selfClosing)
    (hinner : Enumerates Place.Before (ReplacedAt doc n.inner) ws)
    (htag : LowersTag doc n.tag as ws') :
    Enumerates Spot.Before (ReplacedIn doc n) (ws ++ ws') := by
  have hcontent : n.kind.isContent = true ∧ n.kind ≠ .expression := by
    rcases hkind with hkind | hkind <;> simp [hkind, Kind.isContent]
  refine hinner.join (f := fun p => .content p.1 p.2) (g := fun p => .tag p.1) htag.enumerates
    ?_ ?_ ?_ ?_ ?_ ?_
  · rintro p w ⟨m, hm, hp⟩
    exact .content hm hp
  · rintro p w ⟨a, ha, c, hreplaced⟩
    exact .tag ha hreplaced
  · rintro s w (⟨hreplaced⟩ | ⟨ha, hreplaced⟩ | ⟨hm, hs⟩)
    · exact (not_replacedChild_of_isContent hcontent.left (fun h => (hcontent.right h).elim)
        hreplaced).elim
    · exact Or.inr ⟨(_, ()), ⟨_, ha, _, hreplaced⟩, rfl⟩
    · exact Or.inl ⟨(_, _), ⟨_, hm, hs⟩, rfl⟩
  · rintro _ _ (⟨_, _, hlt⟩ | ⟨_, hbefore⟩)
    · exact .content hlt
    · exact .within hbefore
  · rintro _ _ (⟨_, _, hlt⟩ | ⟨_, hfalse⟩)
    · exact .tag hlt
    · exact hfalse.elim
  · exact fun _ _ => .contentTag

theorem enumerates_replaced {c : Text} (h : ReplacedChild doc n c w) :
    Enumerates Spot.Before (ReplacedIn doc n) [w] := by
  have hkind : n.kind ≠ .element ∧ n.kind ≠ .selfClosing := by
    cases h with
    | nested hkind _ => simp [hkind]
    | unsupported hkind =>
      constructor <;>
      · intro hn
        rw [hn] at hkind
        cases hkind
  exact enumerates_singleton (.self h) fun s w hs => (hs.eq_self hkind.left hkind.right).left

theorem enumerates_run (hrun : ∀ m ∈ run, m.kind.isTextual = true)
    (h : Enumerates Place.Before (ReplacedAt doc ns) ws) :
    Enumerates Place.Before (ReplacedAt doc (run ++ ns)) ws := by
  induction run with
  | nil => exact h
  | cons n run ih =>
    exact (ih fun m hm => hrun m (List.mem_cons_of_mem n hm)).at_cons_of_not
      (not_replacedIn_of_isTextual (hrun n List.mem_cons_self))

/-- The warnings about nodes are about the places in them that are replaced. -/
theorem Lowers.enumerates (h : Lowers doc ns ks ws) :
    Enumerates Place.Before (ReplacedAt doc ns) ws := by
  induction h with
  | nil =>
    refine enumerates_nil ?_
    rintro p w ⟨n, hn, -⟩
    cases hn
  | text _ hrun _ _ ih => exact enumerates_run hrun ih
  | @element n _ _ _ _ _ _ _ hkind _ _ htag _ ihinner ih =>
    have hinner : n.inner = n.content := if_pos hkind
    rw [← hinner] at ihinner
    exact ih.at_cons (enumerates_element (Or.inl hkind) ihinner htag)
  | @fragment n _ _ _ _ _ hfragment _ _ ihinner ih =>
    have hkind := Node.kind_of_isFragment hfragment
    have hinner : n.inner = n.content := if_pos hkind
    have htag : LowersTag doc n.tag [] [] := by
      have hnil : n.tag = [] := by simp [Node.tag, hkind, hfragment]
      rw [hnil]
      exact .nil
    rw [← hinner] at ihinner
    have hn := enumerates_element (Or.inl hkind) ihinner htag
    rw [List.append_nil] at hn
    exact ih.at_cons hn
  | @selfClosing n _ _ _ _ _ hkind htag _ ih =>
    have hinner : n.inner = [] := by simp [Node.inner, hkind]
    have hnone : Enumerates Place.Before (ReplacedAt doc n.inner) [] := by
      refine enumerates_nil ?_
      rintro p w ⟨m, hm, -⟩
      rw [hinner] at hm
      cases hm
    exact ih.at_cons (enumerates_element (Or.inr hkind) hnone htag)
  | empty hkind hempty _ ih =>
    refine ih.at_cons_of_not (not_replacedIn_of_isContent ?_ ?_ ?_ ?_)
    · rw [hkind]; rfl
    · simp [hkind]
    · simp [hkind]
    · exact fun _ hholds => hholds.children_ne_nil hempty
  | kept hkind _ hmarkup _ ih =>
    refine ih.at_cons_of_not (not_replacedIn_of_isContent ?_ ?_ ?_ ?_)
    · rw [hkind]; rfl
    · simp [hkind]
    · simp [hkind]
    · exact fun _ => hmarkup
  | replaced hreplaced _ ih => exact ih.at_cons (enumerates_replaced hreplaced)

/-- Nodes are lowered by the rules and in no other way. A comment takes each place of markup where
only text can stand, and of what has no neutral form; there is one warning about each such place and
no other, and the warnings come in the order of the places. -/
theorem contained_lower (doc : Text) (ns : List Node) :
    (∀ ks ws, Lowers doc ns ks ws ↔ lower doc ns = ⟨ks, ws⟩) ∧
    (∃ places : List Place, places.Nodup ∧ places.Pairwise Place.Before ∧
      (∀ p, p ∈ places ↔ ∃ w, ReplacedAt doc ns p w) ∧
      List.Forall₂ (ReplacedAt doc ns) places (lower doc ns).warnings) ∧
    ∀ n c w, ReplacedAttribute doc n c w ∨
        ReplacedChild doc n c w ∧ ¬ ['*', '/'] <:+: n.kind.label → Ir.IsComment c := by
  have hlowers := lowers_lower doc ns
  refine ⟨fun ks ws => ⟨Lowers.eq, fun h => by rwa [h] at hlowers⟩, ?_, ?_⟩
  · obtain ⟨places, hbefore, hmem, hforall⟩ := hlowers.enumerates
    refine ⟨places, hbefore.imp Place.Before.ne, hbefore, fun p => ⟨fun hp => ?_, ?_⟩, hforall⟩
    · obtain ⟨i, hi, rfl⟩ := List.mem_iff_getElem.mp hp
      exact ⟨_, hforall.get hi (hforall.length_eq ▸ hi)⟩
    · rintro ⟨w, hp⟩
      exact hmem p w hp
  · rintro n c w (hattribute | ⟨hchild, hlabel⟩)
    · exact hattribute.isComment
    · exact hchild.isComment hlabel

end Offside.Markup
