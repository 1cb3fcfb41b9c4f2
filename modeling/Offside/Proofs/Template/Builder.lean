import Offside.Proofs.Template.Heap
import Offside.Proofs.Template.Sound

/-! Reading in place comes to what reading comes to. Between two lines memory holds the tree, a line
that can take children is kept with the place where the list at its depth lies, and a conditional
that can take branches with the place where its branches lie. -/
namespace Offside

open Text

/-! ## What lines are read as -/

namespace Node

/-- The node holds no list. -/
def isLeaf : Node → Bool
  | text .. | expression .. => true
  | element .. | conditional .. | loop .. | foreign _ => false

/-- The node is a leaf, or an element with leaves. -/
inductive Flat : Node → Prop
  | leaf {n : Node} : n.isLeaf = true → Flat n
  | element {name : Text} {classes : List Text} {children : List Node} {span : Option Span} :
      (∀ n ∈ children, n.isLeaf = true) → Flat (.element name classes children span)

variable {m : Mark} {line : Text} {n : Node} {ds : List Diagnostic}

theorem isLeaf_read (m : Mark) (placement : Placement) (line : Text) :
    (Pipe.read m placement line).1.isLeaf = true := rfl

theorem isLeaf_readExpression (h : readExpression m line = .ok n) : n.isLeaf = true := by
  rw [readExpression] at h
  split at h
  · cases h
  dsimp only at h
  split at h
  · cases h
  split at h
  · cases h
  · obtain rfl := Except.ok.inj h
    rfl

/-- An element that is read holds nothing but texts and expressions. -/
theorem readElement_flat (h : readElement m line = .ok (n, ds)) :
    ∃ name classes children span, n = .element name classes children span ∧
      ∀ c ∈ children, c.isLeaf = true := by
  rw [readElement.eq_def] at h
  split at h
  · split at h
    · obtain ⟨⟨token, tail⟩, -, h⟩ := eq_ok_of_bind h
      dsimp only at h
      split at h
      · obtain ⟨rfl, -⟩ := Prod.mk.inj (Except.ok.inj h)
        exact ⟨_, _, [], _, rfl, by simp⟩
      · obtain ⟨rfl, -⟩ := Prod.mk.inj (Except.ok.inj h)
        exact ⟨_, _, _, _, rfl, by simp [isLeaf_read]⟩
    · cases h
  · cases h

theorem reading_flat {r : Except Diagnostic (Node × List Diagnostic)}
    (h : reading r = (some n, ds)) : r = .ok (n, ds) := by
  cases r with
  | error d => cases h
  | ok r =>
    obtain ⟨k, es⟩ := r
    obtain ⟨hk, rfl⟩ := Prod.mk.inj h
    rw [Option.some.inj hk]

/-- What stands on the line of a branch is a leaf, or an element with leaves. -/
theorem readInline_flat (h : readInline m line = (some n, ds)) : n.Flat := by
  rw [readInline.eq_def] at h
  split at h
  · obtain ⟨hn, -⟩ := Prod.mk.inj h
    exact .leaf (Option.some.inj hn ▸ isLeaf_read ..)
  · have hexpression := reading_flat h
    cases hread : readExpression m _ with
    | error d =>
      rw [hread] at hexpression
      cases hexpression
    | ok k =>
      rw [hread] at hexpression
      obtain ⟨rfl, -⟩ := Prod.mk.inj (Except.ok.inj hexpression)
      exact .leaf (isLeaf_readExpression hread)
  · cases h
  · obtain ⟨name, classes, children, span, rfl, hchildren⟩ := readElement_flat (reading_flat h)
    exact .element hchildren

theorem storedIn_of_isLeaf {ns : List Node} (h : ∀ n ∈ ns, n.isLeaf = true) (r : Nat) :
    cellsIn r ns = ns.map .leaf ∧ storedIn r ns = [] := by
  induction ns generalizing r with
  | nil => exact ⟨rfl, rfl⟩
  | cons n ns ih =>
    obtain ⟨hn, hns⟩ := List.forall_mem_cons.mp h
    obtain ⟨hcells, hstored⟩ := ih hns (r + n.places)
    rw [cellsIn, storedIn, hcells, hstored]
    cases n with
    | text | expression => exact ⟨rfl, rfl⟩
    | element | conditional | loop | foreign => cases hn

end Node

namespace Builder

open Node Outline

variable {b : Builder} {s : Outliner} {l : Line} {m : Mark} {line : Text} {level : Nat}
  {body : List Node} {ds : List Diagnostic}

/-- The builder knows what the outliner knows. -/
structure Mirrors (b : Builder) (s : Outliner) : Prop where
  heap : b.heap = layout root s.template.children
  header : b.header = { s.template with children := [] }
  levels : b.stack.map Frame.level = s.frames.map Nat.cast ++ [-1]
  frames : ∀ f ∈ b.stack, ∃ d body, f.level = (d : Nat) - 1 ∧
    LiesAt s.template.children d f.children body
  keys : b.chains.map (fun c => (c.1, c.2.hasElse)) =
    s.chains.map fun c => ((c.level : Int), c.hasElse)
  chains : ∀ c ∈ b.chains, ∃ (d : Nat) (front : List Node) (bs : List (Branch Node))
    (span : Option Span), c.1 = d ∧ BranchesAt s.template.children d c.2.branches front bs span
  propsLevel : b.propsLevel = s.propsLevel.map Nat.cast
  classesLevel : b.classesLevel = s.classesLevel.map Nat.cast
  diagnostics : b.diagnostics = s.diagnostics

theorem mirrors_start (span : Option Span) : (start span).Mirrors (.start span) where
  heap := rfl
  header := rfl
  levels := rfl
  frames f hf := by
    obtain rfl := List.mem_singleton.mp hf
    exact ⟨0, [], rfl, rfl, rfl⟩
  keys := rfl
  chains := by simp [start]
  propsLevel := rfl
  classesLevel := rfl
  diagnostics := rfl

theorem Mirrors.note (h : b.Mirrors s) (ds : List Diagnostic) : (b.note ds).Mirrors (s.note ds) :=
  { h with diagnostics := congrArg (· ++ ds) h.diagnostics }

theorem Mirrors.report (h : b.Mirrors s) (m : Mark) (p : Problem) (length : Nat) :
    (b.report m p length).Mirrors (s.report m p length) := h.note _

/-! ## Closing -/

theorem filter_cast (base : Option Nat) (level : Nat) :
    (base.map (Nat.cast : Nat → Int)).filter (· < (level : Int)) =
      (base.filter (· < level)).map Nat.cast := by
  cases base with
  | none => rfl
  | some k => by_cases hk : k < level <;> simp [Option.filter, hk]

theorem Mirrors.closeHeaders (h : b.Mirrors s) (level : Nat) :
    (b.closeHeaders level).Mirrors (s.closeHeaders level) :=
  { h with
    propsLevel := by
      rw [Builder.closeHeaders, Outliner.closeHeaders, ← filter_cast, ← h.propsLevel]
    classesLevel := by
      rw [Builder.closeHeaders, Outliner.closeHeaders, ← filter_cast, ← h.classesLevel] }

/-- Closing lines leaves the levels above, and opens none. -/
theorem popTo_eq {fs : List Frame} {ls : List Nat}
    (h : fs.map Frame.level = ls.map Nat.cast ++ [-1]) (level : Nat) :
    (popTo level fs).map Frame.level = (ls.dropWhile (level ≤ ·)).map Nat.cast ++ [-1] ∧
      popTo level fs ⊆ fs := by
  induction ls generalizing fs with
  | nil =>
    obtain ⟨f, rfl, hf⟩ := List.map_eq_singleton_iff.mp h
    exact ⟨h, fun _ => id⟩
  | cons k ls ih =>
    obtain ⟨f, fs, rfl, hf, hfs⟩ := List.map_eq_cons_iff.mp h
    obtain ⟨g, gs, rfl⟩ : ∃ g gs, fs = g :: gs := by
      refine List.exists_cons_of_ne_nil ?_
      rintro rfl
      simp at hfs
    rw [popTo, hf]
    by_cases hk : level ≤ k
    · rw [if_pos (by exact_mod_cast hk), List.dropWhile_cons_of_pos (by simpa using hk)]
      exact ⟨(ih hfs).1, fun x hx => List.mem_cons_of_mem f ((ih hfs).2 hx)⟩
    · rw [if_neg (by exact_mod_cast hk), List.dropWhile_cons_of_neg (by simpa using hk)]
      exact ⟨h, fun _ => id⟩

theorem filter_keys {bs : List (Int × OpenChain)} {cs : List Chain}
    (h : bs.map (fun c => (c.1, c.2.hasElse)) = cs.map fun c => ((c.level : Int), c.hasElse))
    (p : Int → Bool) :
    (bs.filter (p ·.1)).map (fun c => (c.1, c.2.hasElse)) =
      (cs.filter (p ·.level)).map fun c => ((c.level : Int), c.hasElse) := by
  have hfilter := congrArg (List.filter (p ·.1)) h
  rwa [List.filter_map, List.filter_map] at hfilter

/-- Both close the same chains. -/
theorem settle_chains (b : Builder) (level : Int) (kind : LineKind) :
    (b.settle level kind).chains =
      b.chains.filter fun c => c.1 < level || (c.1 == level && kind.continuesChain) := by
  rw [settle]
  cases kind.continuesChain with
  | true =>
    refine List.filter_congr fun c _ => ?_
    rw [Bool.eq_iff_iff]
    simp
    omega
  | false =>
    rw [if_neg (by simp), List.filter_filter]
    refine List.filter_congr fun c _ => ?_
    rw [Bool.eq_iff_iff]
    simp
    omega

/-- Both close the same lines and chains. -/
theorem Mirrors.settle (h : b.Mirrors s) (level : Nat) (kind : LineKind) :
    (b.settle level kind).Mirrors (s.settle level kind) := by
  obtain ⟨hlevels, hsubset⟩ := popTo_eq h.levels level
  have hchains : s.chains.filter (fun c => c.level < level || (c.level == level &&
      kind.continuesChain)) = s.chains.filter fun c => (c.level : Int) < (level : Int) ||
        ((c.level : Int) == (level : Int) && kind.continuesChain) := by
    refine List.filter_congr fun c _ => ?_
    have hlevel : (c.level : Int) = level ↔ c.level = level := by omega
    simp [beq_eq_decide, hlevel]
  exact { h with
    levels := hlevels
    frames := fun f hf => h.frames f (hsubset hf)
    keys := by
      rw [settle_chains, Outliner.settle, hchains]
      exact filter_keys h.keys fun k => k < (level : Int) || (k == (level : Int) &&
        kind.continuesChain)
    chains := fun c hc => by
      rw [settle_chains] at hc
      exact h.chains c (List.mem_of_mem_filter hc) }

/-! ## Growing -/

/-- The innermost open line is one level above the deepest that the next line can have. -/
theorem Mirrors.exists_top (h : b.Mirrors s) :
    ∃ top rest, b.stack = top :: rest ∧ top.level + 1 = s.nextLevel := by
  have hlevels := h.levels
  rw [Outliner.nextLevel]
  cases hframes : s.frames with
  | nil =>
    rw [hframes] at hlevels
    obtain ⟨top, hstack, htop⟩ := List.map_eq_singleton_iff.mp hlevels
    exact ⟨top, [], hstack, by simp [htop]⟩
  | cons k ks =>
    rw [hframes] at hlevels
    obtain ⟨top, rest, hstack, htop, -⟩ := List.map_eq_cons_iff.mp hlevels
    exact ⟨top, rest, hstack, by simp [htop]⟩

/-- The list that the next node goes to is the one at the end of the open edge. -/
theorem Mirrors.exists_parent (h : b.Mirrors s) (hs : s.Leveled) : ∃ parent body,
    b.stack.head? = some parent ∧
      LiesAt s.template.children s.frames.length parent.children body := by
  obtain ⟨top, rest, hstack, hlevel⟩ := h.exists_top
  obtain ⟨d, body, hd, hlies⟩ := h.frames top (by simp [hstack])
  rw [Outliner.nextLevel_eq hs] at hlevel
  obtain rfl : d = s.frames.length := by omega
  exact ⟨top, body, by simp [hstack], hlies⟩

theorem Mirrors.depth_le (h : b.Mirrors s) (hs : s.Leveled) {f : Frame} (hf : f ∈ b.stack) {d : Nat}
    (hd : f.level = (d : Nat) - 1) : d ≤ s.frames.length := by
  have hlevel : f.level ∈ s.frames.map (Nat.cast : Nat → Int) ++ [-1] :=
    h.levels ▸ List.mem_map_of_mem hf
  rw [hs.frames] at hlevel
  simp only [List.mem_append, List.mem_map, down, List.mem_reverse, List.mem_range,
    List.mem_singleton] at hlevel
  rcases hlevel with ⟨k, hk, hlevel⟩ | hlevel <;> omega

/-- The chain of the outliner that a chain stands for, and the conditional that it goes on with. -/
theorem Mirrors.exists_branches (h : b.Mirrors s) {c : Int × OpenChain} (hc : c ∈ b.chains) :
    ∃ c' ∈ s.chains, c.1 = c'.level ∧ c.2.hasElse = c'.hasElse ∧ ∃ front bs span,
      BranchesAt s.template.children c'.level c.2.branches front bs span := by
  have hkey : (c.1, c.2.hasElse) ∈ s.chains.map fun c => ((c.level : Int), c.hasElse) :=
    h.keys ▸ List.mem_map_of_mem hc
  obtain ⟨c', hc', hpair⟩ := List.mem_map.mp hkey
  obtain ⟨hlevel, helse⟩ := Prod.mk.inj hpair
  obtain ⟨d, front, bs, span, hd, hbranches⟩ := h.chains c hc
  obtain rfl : d = c'.level := by omega
  exact ⟨c', hc', hlevel.symm, helse.symm, front, bs, span, hbranches⟩

/-- A change of the list at the end of the open edge leaves all open lists and conditionals where
they are, if the conditionals at its depth stay at its end. -/
theorem Mirrors.modifyAt (h : b.Mirrors s) (hs : s.Leveled) {k : Nat}
    (hk : listAt? k s.template.children = some body) (hframes : s.frames.length ≤ k)
    (f : List Node → List Node)
    (hlast : ∀ c ∈ s.chains, c.level = k → ∀ {r front bs span},
      BranchesAt s.template.children k r front bs span →
        ∃ bs', BranchesAt (Outline.modifyAt f k s.template.children) k r front bs' span) :
    { b with heap := layout root (Outline.modifyAt f k s.template.children) }.Mirrors
      { s with template.children := Outline.modifyAt f k s.template.children } :=
  { h with
    heap := rfl
    frames := fun g hg => by
      obtain ⟨d, inner, hd, hlies⟩ := h.frames g hg
      obtain ⟨inner', hlies'⟩ := hlies.grow hk ((h.depth_le hs hg hd).trans hframes) f
      exact ⟨d, inner', hd, hlies'⟩
    chains := fun c hc => by
      obtain ⟨c', hc', hlevel, -, front, bs, span, hbranches⟩ := h.exists_branches hc
      have hle := (hs.chains c' hc').trans hframes
      rcases hle.lt_or_eq with hlt | heq
      · obtain ⟨bs', hbranches'⟩ := hbranches.grow hk hlt f
        exact ⟨_, front, bs', span, hlevel, hbranches'⟩
      · rw [heq] at hbranches
        obtain ⟨bs', hbranches'⟩ := hlast c' hc' heq hbranches
        exact ⟨k, front, bs', span, heq ▸ hlevel, hbranches'⟩ }

theorem next_eq {ns : List Node} (h : b.heap = layout root ns) : b.next = placesIn ns + 1 := by
  rw [next, h, length_layout]

/-- A node with what it holds, put at the end of a list at the open edge. -/
theorem append_eq {ns : List Node} {d r : Nat} (h : b.heap = layout root ns)
    (hr : LiesAt ns d r body) (n : Node) :
    ({ b with heap := b.heap ++ n.stored b.next } : Builder).append r (n.cell b.next) =
      { b with heap := layout root (Outline.add d n ns) } := by
  rw [next_eq h, append, h]
  exact congrArg (fun heap => { b with heap := heap }) (hr.layout_add n)

/-- Putting a node at the end of a list in its place puts it at the end of the list in the tree. -/
theorem add_eq {ns : List Node} {d r : Nat} {n : Node} (h : b.heap = layout root ns)
    (hr : LiesAt ns d r body) (hn : n.Flat) :
    b.add r n = { b with heap := layout root (Outline.add d n ns) } := by
  have happend := append_eq h hr n
  cases hn with
  | @leaf n hn =>
    have hstored : n.stored b.next = [] := by
      cases n with
      | text | expression => rfl
      | element | conditional | loop | foreign => cases hn
    rw [hstored, List.append_nil] at happend
    cases n with
    | text | expression => exact happend
    | element | conditional | loop | foreign => cases hn
  | @element name classes children span hchildren =>
    obtain ⟨hcells, hstored⟩ := storedIn_of_isLeaf hchildren (b.next + 1)
    rw [stored, hcells, hstored] at happend
    exact happend

/-- A node goes to the end of the innermost open list, with what it holds behind all else. -/
theorem Mirrors.append (h : b.Mirrors s) (hs : s.Leveled) (n : Node) {r : Nat}
    (hr : LiesAt s.template.children s.frames.length r body)
    (hchains : ∀ c ∈ s.chains, c.level < s.frames.length) :
    (({ b with heap := b.heap ++ n.stored b.next } : Builder).append r (n.cell b.next)).Mirrors
      (s.add n) := by
  rw [append_eq h.heap hr n]
  exact h.modifyAt hs hr.1 le_rfl (· ++ [n]) fun c hc heq => ((hchains c hc).ne heq).elim

theorem Mirrors.add (h : b.Mirrors s) (hs : s.Leveled) {n : Node} (hn : n.Flat) {r : Nat}
    (hr : LiesAt s.template.children s.frames.length r body)
    (hchains : ∀ c ∈ s.chains, c.level < s.frames.length) : (b.add r n).Mirrors (s.add n) := by
  have happend := h.append hs n hr hchains
  rwa [append_eq h.heap hr n, ← add_eq h.heap hr hn] at happend

theorem Mirrors.push (h : b.Mirrors s) {r : Nat}
    (hr : LiesAt s.template.children (level + 1) r body) :
    (b.push r level).Mirrors (s.push level) :=
  { h with
    levels := congrArg ((level : Int) :: ·) h.levels
    frames := List.forall_mem_cons.mpr ⟨⟨level + 1, body, by simp, hr⟩, h.frames⟩ }

/-! ## Branches -/

/-- A branch without a body, put at the end of a conditional. -/
theorem appendBranch_eq {ns front : List Node} {bs : List (Branch Node)} {span : Option Span}
    {d r : Nat} (h : b.heap = layout root ns) (hr : BranchesAt ns d r front bs span)
    (test : Option Text) (sp : Option Span) :
    (b.take (.nodes [])).appendBranch r ⟨test, b.next, sp⟩ =
      { b with heap := layout root (Outline.addBranch d ⟨test, [], sp⟩ ns) } := by
  rw [next_eq h, take, appendBranch, h]
  exact congrArg (fun heap => { b with heap := heap }) (hr.layout_addBranch ⟨test, [], sp⟩)

/-- Opening a branch in place is opening it in the tree. -/
theorem Mirrors.openBranch (h : b.Mirrors s) (hs : s.Leveled) (hlen : s.frames.length = level)
    {front : List Node} {bs : List (Branch Node)} {span : Option Span} {r : Nat}
    (hr : BranchesAt s.template.children level r front bs span) (head : BranchHead) :
    (b.openBranch r head level).Mirrors (s.addBranch head level) := by
  subst hlen
  obtain ⟨test, inline, headSpan⟩ := head
  have hopened := appendBranch_eq h.heap hr test (some headSpan)
  have hmirrors := h.modifyAt hs hr.1 le_rfl (onLast (Node.addBranch ⟨test, [], some headSpan⟩))
    fun _ _ _ _ _ _ _ hb => ⟨_, hb.addBranch ⟨test, [], some headSpan⟩⟩
  have hbody := hr.liesAt_addBranch test (some headSpan)
  rw [← next_eq h.heap] at hbody
  rw [Builder.openBranch, Outliner.addBranch, Outliner.branchOf]
  simp only [hopened]
  cases inline with
  | none =>
    simp only [Outliner.note_nil]
    exact hmirrors.push hbody
  | some place =>
    obtain ⟨m, source⟩ := place
    obtain ⟨⟨node, ds⟩, hread⟩ : ∃ r, Node.readInline m source = r := ⟨_, rfl⟩
    simp only [hread]
    cases node with
    | none =>
      exact hmirrors.note ds
    | some n =>
      have hinto := add_eq (b := ({ b with heap := layout root (Outline.addBranch s.frames.length
        ⟨test, [], some headSpan⟩ s.template.children) } : Builder).note ds) rfl hbody
        (readInline_flat hread)
      have hchildren := hr.add_addBranch test (some headSpan) n
      have hgrown := (hmirrors.note ds).modifyAt ⟨hs.frames, hs.chains⟩ hbody.1 (Nat.le_succ _)
        (· ++ [n]) fun c hc heq => absurd (hs.chains c hc) (by omega)
      simp only [hinto, hchildren]
      rw [← Outline.add] at hgrown
      rw [← Outline.addBranch] at hgrown
      simp only [Outliner.note, hchildren] at hgrown
      exact hgrown

/-- The chain at a level is found by both. -/
theorem lookup_keys {bs : List (Int × OpenChain)} {cs : List Chain}
    (h : bs.map (fun c => (c.1, c.2.hasElse)) = cs.map fun c => ((c.level : Int), c.hasElse))
    (level : Nat) : (bs.lookup (level : Int)).map OpenChain.hasElse =
      (cs.find? (·.level == level)).map Chain.hasElse := by
  induction bs generalizing cs with
  | nil =>
    obtain rfl := List.map_eq_nil_iff.mp h.symm
    rfl
  | cons c bs ih =>
    obtain ⟨k, c⟩ := c
    obtain ⟨c', cs', rfl, hc, hcs⟩ := List.map_eq_cons_iff.mp h.symm
    obtain ⟨rfl, helse⟩ := Prod.mk.inj hc
    rw [List.lookup_cons, List.find?_cons]
    by_cases hlevel : c'.level = level
    · subst hlevel
      rw [beq_self_eq_true, beq_self_eq_true]
      exact congrArg some helse.symm
    · have hne : ((level : Int) == c'.level) = false := beq_eq_false_iff_ne.mpr (by omega)
      rw [hne, beq_eq_false_iff_ne.mpr hlevel]
      exact ih hcs.symm

/-- A chain that is found has its branches at the end of the list at its level. -/
theorem Mirrors.chainAt? (h : b.Mirrors s) (level : Nat) :
    (b.chains.lookup (level : Int) = none ∧ s.chainAt? level = none) ∨
      ∃ c c' front bs span, b.chains.lookup (level : Int) = some c ∧ s.chainAt? level = some c' ∧
        c.hasElse = c'.hasElse ∧
        BranchesAt s.template.children level c.branches front bs span := by
  have hkeys := lookup_keys h.keys level
  rw [Outliner.chainAt?]
  cases hb : b.chains.lookup (level : Int) with
  | none =>
    rw [hb] at hkeys
    exact Or.inl ⟨rfl, Option.map_eq_none_iff.mp hkeys.symm⟩
  | some c =>
    rw [hb] at hkeys
    obtain ⟨c', hc', helse⟩ := Option.map_eq_some_iff.mp hkeys.symm
    have hmem : ((level : Int), c) ∈ b.chains := by
      obtain ⟨before, after, hchains, -⟩ := List.lookup_eq_some_iff.mp hb
      simp [hchains]
    obtain ⟨d, front, bs, span, hd, hbranches⟩ := h.chains _ hmem
    obtain rfl : level = d := Int.ofNat.inj hd
    exact Or.inr ⟨c, c', front, bs, span, rfl, hc', helse.symm, hbranches⟩

/-- Both go on with the same conditional. -/
theorem Mirrors.readElseIf (h : b.Mirrors s) (hs : s.Leveled) (hlen : s.frames.length = level)
    (m : Mark) (line : Text) : (b.readElseIf m level line).Mirrors (s.readElseIf m level line) := by
  rw [Builder.readElseIf, Outliner.readElseIf]
  rcases h.chainAt? level with ⟨hb, hc⟩ | ⟨c, c', front, bs, span, hb, hc, helse, hbranches⟩
  · rw [hb, hc]
    exact h.report ..
  · rw [hb, hc]
    simp only [helse]
    split
    · exact h.report ..
    · cases BranchHead.readTested .elseIf m line with
      | error d => exact h.note [d]
      | ok head => exact h.openBranch hs hlen hbranches head

/-- Closing the chain at a level. -/
theorem Mirrors.close (h : b.Mirrors s) (level : Nat) :
    Mirrors
      { b with chains := b.chains.map fun c =>
          if c.1 == (level : Int) then (c.1, { c.2 with hasElse := true }) else c }
      { s with chains := s.chains.map fun c =>
          if c.level == level then { c with hasElse := true } else c } :=
  { h with
    keys := by
      have hkeys := congrArg (List.map fun c : Int × Bool =>
        if c.1 == (level : Int) then (c.1, true) else c) h.keys
      rw [List.map_map, List.map_map] at hkeys ⊢
      refine Eq.trans ?_ (hkeys.trans ?_) <;> refine List.map_congr_left fun c _ => ?_
      · by_cases hc : c.1 = level <;> simp [hc]
      · by_cases hc : c.level = level
        · simp [hc]
        · have hne : (c.level : Int) ≠ level := by omega
          simp [hc, hne]
    chains := by
      intro c hc
      obtain ⟨c', hc', rfl⟩ := List.mem_map.mp hc
      obtain ⟨d, front, bs, span, hd, hbranches⟩ := h.chains c' hc'
      refine ⟨d, front, bs, span, ?_⟩
      split <;> exact ⟨hd, hbranches⟩ }

/-- Both end the same conditional. -/
theorem Mirrors.readElse (h : b.Mirrors s) (hs : s.Leveled) (hlen : s.frames.length = level)
    (m : Mark) (line : Text) : (b.readElse m level line).Mirrors (s.readElse m level line) := by
  rw [Builder.readElse, Outliner.readElse]
  rcases h.chainAt? level with ⟨hb, hc⟩ | ⟨c, c', front, bs, span, hb, hc, helse, hbranches⟩
  · rw [hb, hc]
    exact h.report ..
  · rw [hb, hc]
    simp only [helse]
    split
    · exact h.report ..
    · refine (h.close level).openBranch ⟨hs.frames, fun k hk => ?_⟩ hlen hbranches _
      obtain ⟨k', hk', rfl⟩ := List.mem_map.mp hk
      have hle := hs.chains k' hk'
      split <;> exact hle

/-- Opening a chain at a level below which there is none. -/
theorem Mirrors.openChain (h : b.Mirrors s) (hchains : ∀ c ∈ s.chains, c.level < level)
    {front : List Node} {bs : List (Branch Node)} {span : Option Span} {r : Nat}
    (hr : BranchesAt s.template.children level r front bs span) :
    Mirrors { b with chains := ((level : Int), ⟨r, false⟩) :: b.chains.filter (·.1 != level) }
      { s with chains := ⟨level, false⟩ :: s.chains } := by
  have hfilter : b.chains.filter (·.1 != (level : Int)) = b.chains := by
    rw [List.filter_eq_self]
    intro c hc
    obtain ⟨c', hc', hlevel, -⟩ := h.exists_branches hc
    have hlt := hchains c' hc'
    simp only [bne_iff_ne]
    omega
  rw [hfilter]
  exact { h with
    keys := congrArg (((level : Int), false) :: ·) h.keys
    chains := List.forall_mem_cons.mpr ⟨⟨level, front, bs, span, rfl, hr⟩, h.chains⟩ }

/-- A conditional begins without a branch, and gets its first one at once. -/
theorem readIf_eq (s : Outliner) (head : BranchHead) (level : Nat) :
    let (branch, ds) := Outliner.branchOf head
    let t := (s.add (.conditional [branch] (some head.span))).note ds
    let u := s.add (.conditional [] (some head.span))
    ({ t with chains := ⟨level, false⟩ :: t.chains } : Outliner).pushBranch head level =
      ({ u with chains := ⟨level, false⟩ :: u.chains } : Outliner).addBranch head level := by
  have hchildren : ∀ b, Outline.addBranch s.frames.length b (Outline.add s.frames.length
      (.conditional [] (some head.span)) s.template.children) =
      Outline.add s.frames.length (.conditional [b] (some head.span)) s.template.children := by
    intro b
    rw [Outline.addBranch, Outline.add, modifyAt_modifyAt, Outline.add]
    congr 1
    funext ns
    simp [Node.addBranch]
  simp only [Outliner.addBranch, Outliner.add, hchildren]
  rfl

/-- Both start a conditional with one branch. -/
theorem Mirrors.readIf (h : b.Mirrors s) (hs : s.Leveled) (hlen : s.frames.length = level)
    {parent : Nat} (hr : LiesAt s.template.children level parent body)
    (hchains : ∀ c ∈ s.chains, c.level < level) (m : Mark) (line : Text) :
    (b.readIf m parent level line).Mirrors (s.readIf m level line) := by
  subst hlen
  rw [Builder.readIf, Outliner.readIf]
  cases BranchHead.readTested .ifLine m line with
  | error d => exact h.note [d]
  | ok head =>
    have hif := readIf_eq s head s.frames.length
    dsimp only at hif ⊢
    rw [hif]
    have hadded := h.append hs (.conditional [] (some head.span)) hr hchains
    have hbranches := hr.branchesAt_add (some head.span)
    rw [← next_eq h.heap] at hbranches
    refine (hadded.openChain hchains hbranches).openBranch ⟨hs.frames, ?_⟩ rfl hbranches head
    exact List.forall_mem_cons.mpr ⟨le_rfl, hs.chains⟩

/-! ## Loops and elements -/

/-- Both open a loop. -/
theorem Mirrors.readLoop (h : b.Mirrors s) (hs : s.Leveled) (hlen : s.frames.length = level)
    {parent : Nat} (hr : LiesAt s.template.children level parent body)
    (hchains : ∀ c ∈ s.chains, c.level < level) (m : Mark) (line : Text) :
    (b.readLoop m parent level line).Mirrors (s.readLoop m level line) := by
  subst hlen
  rw [Builder.readLoop, Outliner.readLoop]
  cases Loop.read? line with
  | none => exact h.report ..
  | some names =>
    obtain ⟨v, i⟩ := names
    have hadded := h.append hs (.loop v i [] (some (m.span line.length))) hr hchains
    have hbody := hr.add (n := .loop v i [] (some (m.span line.length))) rfl rfl
    rw [← next_eq h.heap] at hbody
    exact hadded.push hbody

/-- Both open an element. -/
theorem Mirrors.readElement (h : b.Mirrors s) (hs : s.Leveled) (hlen : s.frames.length = level)
    {parent : Nat} (hr : LiesAt s.template.children level parent body)
    (hchains : ∀ c ∈ s.chains, c.level < level) (m : Mark) (line : Text) :
    (b.readElement m parent level line).Mirrors (s.readKind m level line .element) := by
  subst hlen
  rw [Builder.readElement, Outliner.readKind]
  cases hread : Node.readElement m line with
  | error d => exact h.note [d]
  | ok result =>
    obtain ⟨n, ds⟩ := result
    obtain ⟨name, classes, children, span, rfl, hchildren⟩ := readElement_flat hread
    have hbody := hr.add (n := .element name classes children span) rfl rfl
    rw [← next_eq h.heap] at hbody
    exact ((h.note ds).add ⟨hs.frames, hs.chains⟩ (.element hchildren) hr hchains).push hbody

/-! ## The header -/

theorem Mirrors.hasNodes (h : b.Mirrors s) : b.hasNodes = !s.template.children.isEmpty := by
  rw [Builder.hasNodes, h.heap]
  cases s.template.children <;> rfl

theorem cast_bne (level base : Nat) : ((level : Int) != base) = (level != base) := by
  rw [Bool.eq_iff_iff, bne_iff_ne, bne_iff_ne]
  omega

theorem Mirrors.readId (h : b.Mirrors s) (m : Mark) (level : Nat) (line : Text) :
    (b.readId m level line).Mirrors (s.readId m level line) := by
  have hlevel : ((level : Int) != 0) = (level != 0) := cast_bne level 0
  rw [Builder.readId, Outliner.readId, hlevel, h.header]
  split
  · exact h.report ..
  split
  · exact h.report ..
  split
  · exact h.report ..
  cases TemplateId.read m line with
  | error d => exact h.note _
  | ok r => exact { h with header := rfl }

theorem Mirrors.openProps (h : b.Mirrors s) (m : Mark) (level : Nat) (line : Text) :
    (b.openProps m level line).Mirrors (s.openProps m level line) := by
  have hlevel : ((level : Int) != 0) = (level != 0) := cast_bne level 0
  rw [Builder.openProps, Outliner.openProps, hlevel, h.hasNodes, h.header]
  split
  · exact h.report ..
  split
  · exact h.report ..
  · exact { h with header := rfl, propsLevel := rfl }

theorem Mirrors.openClasses (h : b.Mirrors s) (m : Mark) (level : Nat) (line : Text) :
    (b.openClasses m level line).Mirrors (s.openClasses m level line) := by
  have hlevel : ((level : Int) != 0) = (level != 0) := cast_bne level 0
  rw [Builder.openClasses, Outliner.openClasses, hlevel, h.hasNodes, h.header]
  split
  · exact h.report ..
  split
  · exact h.report ..
  · exact { h with header := rfl, classesLevel := rfl }

/-- A line of the props block is read if there is such a block. -/
theorem Mirrors.readField (h : b.Mirrors s) (hprops : s.template.props ≠ none) (m : Mark)
    (base level : Nat) (line : Text) :
    ∃ b', b.readField m base level line = some b' ∧ b'.Mirrors (s.readField m base level line) := by
  obtain ⟨block, hblock⟩ := Option.ne_none_iff_exists'.mp hprops
  have hlevel : ((level : Int) != base + 1) = (level != base + 1) := cast_bne level (base + 1)
  rw [Builder.readField, Outliner.readField, hlevel, h.header, hblock]
  dsimp only
  split
  · exact ⟨_, rfl, h.report ..⟩
  cases PropsField.read m line with
  | error d => exact ⟨_, rfl, h.note _⟩
  | ok field => exact ⟨_, rfl, { h with header := by simp }⟩

/-- A line of the classes block is read if there is such a block. -/
theorem Mirrors.readAlias (h : b.Mirrors s) (haliases : s.template.aliases ≠ none) (m : Mark)
    (base level : Nat) (line : Text) :
    ∃ b', b.readAlias m base level line = some b' ∧ b'.Mirrors (s.readAlias m base level line) := by
  obtain ⟨block, hblock⟩ := Option.ne_none_iff_exists'.mp haliases
  have hlevel : ((level : Int) != base + 1) = (level != base + 1) := cast_bne level (base + 1)
  rw [Builder.readAlias, Outliner.readAlias, hlevel, h.header, hblock]
  dsimp only
  split
  · exact ⟨_, rfl, h.report ..⟩
  cases ClassAlias.read m line with
  | error d => exact ⟨_, rfl, h.note _⟩
  | ok a => exact ⟨_, rfl, { h with header := by simp }⟩

/-! ## Lines -/

/-- Both do the same with a line of a kind. -/
theorem Mirrors.readKind (h : b.Mirrors s) (hs : s.Leveled) (hlen : s.frames.length = level)
    {parent : Nat} (hr : LiesAt s.template.children level parent body) {kind : LineKind}
    (hchains : kind.continuesChain = false → ∀ c ∈ s.chains, c.level < level) (m : Mark)
    (line : Text) :
    (b.readKind m parent level line kind).Mirrors (s.readKind m level line kind) := by
  cases kind with
  | id => exact h.readId m level line
  | props => exact h.openProps m level line
  | classes => exact h.openClasses m level line
  | ifLine => exact h.readIf hs hlen hr (hchains rfl) m line
  | elseIf => exact h.readElseIf hs hlen m line
  | elseLine => exact h.readElse hs hlen m line
  | forLine => exact h.readLoop hs hlen hr (hchains rfl) m line
  | pipe =>
    subst hlen
    exact (h.note _).add ⟨hs.frames, hs.chains⟩ (.leaf (isLeaf_read m .block line)) hr (hchains rfl)
  | expression =>
    subst hlen
    rw [Builder.readKind, Outliner.readKind]
    cases hread : Node.readExpression m line with
    | error d => exact h.note [d]
    | ok node => exact h.add hs (.leaf (isLeaf_readExpression hread)) hr (hchains rfl)
  | element => exact h.readElement hs hlen hr (hchains rfl) m line

theorem note_nil (b : Builder) : b.note [] = b := by
  rw [note, List.append_nil]

/-- What the line ends can be closed before it is reported that the line is too deep. -/
theorem readBody_eq {top parent : Frame} {jumped : Bool} (m : Mark) (level : Int) (line : Text)
    (htop : b.stack.head? = some top) (hjumped : jumped = (top.level + 1 < level : Bool))
    (hparent : (b.settle (min level (top.level + 1)) (LineKind.ofText line)).stack.head? =
      some parent) :
    b.readBody m level line = some (((b.settle (min level (top.level + 1))
      (LineKind.ofText line)).note (if jumped then [m.diagnose .indentJump 1] else [])).readKind m
        parent.children (min level (top.level + 1)) line (LineKind.ofText line)) := by
  subst hjumped
  rw [readBody, htop]
  simp only [Option.bind_eq_bind, Option.bind_some]
  by_cases hjump : top.level + 1 < level
  · simp only [hjump, if_true, decide_true]
    have hreport : ((b.report m .indentJump 1).settle (min level (top.level + 1))
        (LineKind.ofText line)).stack.head? = some parent := hparent
    rw [hreport]
    rfl
  · simp only [hjump, if_false, decide_false]
    rw [hparent, Option.bind_some]
    simp [note_nil]

/-- Both do the same with a line outside the header blocks. -/
theorem Mirrors.readBody (h : b.Mirrors s) (hs : s.Leveled) (m : Mark) (level : Nat)
    (line : Text) :
    ∃ b', b.readBody m level line = some b' ∧ b'.Mirrors (s.readBody m level line) := by
  obtain ⟨top, rest, hstack, htop⟩ := h.exists_top
  obtain ⟨k, hk⟩ : ∃ k, k = min level s.nextLevel := ⟨_, rfl⟩
  obtain ⟨kind, hkind⟩ : ∃ kind, kind = LineKind.ofText line := ⟨_, rfl⟩
  have hnext := Outliner.nextLevel_eq hs
  obtain ⟨hnarrows, hframes, hchains⟩ := hs.narrows_settle (show k ≤ s.frames.length by omega) kind
  have hlen : (s.settle k kind).frames.length = k := by rw [hframes, length_down]
  have hsettle := h.settle k kind
  obtain ⟨parent, body, hparent, hlies⟩ := hsettle.exists_parent hnarrows.leveled
  have hlevel : min (level : Int) (top.level + 1) = k := by omega
  have hjumped : (decide (top.level + 1 < (level : Int))) = decide (s.nextLevel < level) := by
    rw [decide_eq_decide]
    omega
  rw [hlen] at hlies
  have hstep := readBody_eq m level line (by rw [hstack]; rfl) rfl
    (by rw [hlevel, ← hkind]; exact hparent)
  rw [hlevel, ← hkind, hjumped] at hstep
  rw [Outliner.readBody_eq, ← hk, ← hkind]
  refine ⟨_, hstep, ?_⟩
  simp only [decide_eq_true_eq]
  exact (hsettle.note _).readKind ⟨hnarrows.leveled.frames, hnarrows.leveled.chains⟩ hlen hlies
    hchains m line

/-- Reading a line in place has a result, which is that of reading the line. -/
theorem Mirrors.step (h : b.Mirrors s) {P : List Part → Prop} (hs : s.Sound P) (l : Line) :
    ∃ b', b.step l = some b' ∧ b'.Mirrors (s.step l) := by
  rw [Builder.step, Outliner.step]
  cases Margin.ofLine l.text with
  | blank => exact ⟨b, rfl, h⟩
  | tab column => exact ⟨_, rfl, h.report ..⟩
  | odd column => exact ⟨_, rfl, h.report ..⟩
  | level level content =>
    have hclose := h.closeHeaders level
    have hnarrows := hs.leveled.narrows_closeHeaders level
    have hsound := hs.narrows hnarrows
    simp only [Builder.readLevel, Outliner.readLevel]
    cases hprops : (s.closeHeaders level).propsLevel with
    | some base =>
      rw [hclose.propsLevel, hprops]
      exact hclose.readField (hsound.props base hprops).2.1 _ base level content
    | none =>
      cases hclasses : (s.closeHeaders level).classesLevel with
      | some base =>
        rw [hclose.propsLevel, hprops, hclose.classesLevel, hclasses]
        exact hclose.readAlias (hsound.classes base hclasses).2.1 _ base level content
      | none =>
        rw [hclose.propsLevel, hprops, hclose.classesLevel, hclasses]
        exact hclose.readBody hsound.leveled _ level content

end Builder

end Offside
