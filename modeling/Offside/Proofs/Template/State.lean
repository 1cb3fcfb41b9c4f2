import Offside.Proofs.Template.Builder

/-! The state between two lines. The open levels have no gap, every open list is the one that the
last node of the list above it holds, and every chain is the conditional at the end of the list at
its level. A header block is open only while the template has no nodes. -/
namespace Offside

open Text

namespace Chain

variable {c : Chain} {ns : List Node} {b : Branch Node}

/-- A chain that has had its `@else` is a conditional that ends with it. -/
def Shut (c : Chain) (ns : List Node) : Prop :=
  c.hasElse = true → ∃ front branches b span,
    ns = front ++ [.conditional (branches ++ [b]) span] ∧ b.test = none

theorem Shut.mapBody (h : c.Shut ns) (g : List Node → List Node) :
    c.Shut (onLast (Node.mapBody g) ns) := by
  intro helse
  obtain ⟨front, branches, b, span, rfl, hb⟩ := h helse
  refine ⟨front, branches, Branch.mapBody g b, span, ?_, hb⟩
  rw [onLast_concat, Node.mapBody, onLast_concat]

theorem shut_addBranch {front : List Node} {branches : List (Branch Node)} {span : Option Span}
    (hb : c.hasElse = true → b.test = none) :
    c.Shut (onLast (Node.addBranch b) (front ++ [.conditional branches span])) := by
  intro helse
  refine ⟨front, branches, b, span, ?_, hb helse⟩
  rw [onLast_concat, Node.addBranch]

/-- The last branch of the conditional has no test exactly when the chain has had its `@else`. -/
theorem Ends.hasElse_iff {front : List Node} {bs : List (Branch Node)} {span : Option Span}
    (h : c.Ends (front ++ [.conditional bs span]))
    (hs : c.Shut (front ++ [.conditional bs span])) :
    ∃ init last, bs = init ++ [last] ∧ (c.hasElse = true ↔ last.test = none) := by
  obtain ⟨front', branches, span', heq, hne, htests⟩ := h
  obtain ⟨-, hlast⟩ := List.append_inj' heq rfl
  obtain ⟨rfl, -⟩ := Node.conditional.inj (List.cons.inj hlast).1
  obtain ⟨init, last, rfl⟩ := List.eq_nil_or_concat' bs |>.resolve_left hne
  refine ⟨init, last, rfl, fun helse => ?_, fun hlast => ?_⟩
  · obtain ⟨front', init', last', span', heq, hlast'⟩ := hs helse
    obtain ⟨-, hcell⟩ := List.append_inj' heq rfl
    have hbranches := (Node.conditional.inj (List.cons.inj hcell).1).1
    obtain ⟨-, hb⟩ := List.append_inj' hbranches rfl
    rw [(List.cons.inj hb).1]
    exact hlast'
  · by_contra helse
    have hfalse : c.hasElse = false := by simpa using helse
    exact htests hfalse last (by simp) hlast

end Chain

namespace Outliner

variable {P : List Part → Prop} {l : Line} {ls : List Line} {s t : Outliner} {level : Nat}

/-- No level has two chains, and a chain that has had its `@else` ends with it. -/
structure Chained (s : Outliner) : Prop where
  keyed : ∀ c ∈ s.chains, ∀ d ∈ s.chains, c.level = d.level → c = d
  shut : ∀ c ∈ s.chains, ∀ ns, Outline.listAt? c.level s.template.children = some ns → c.Shut ns

theorem chained_start (span : Option Span) : (start span).Chained := by
  constructor <;> simp [start]

/-- Chains may go, and the header may change. -/
theorem Chained.of_subset (h : s.Chained) (hc : ∀ c ∈ t.chains, c ∈ s.chains)
    (ht : t.template.children = s.template.children) : t.Chained := by
  constructor
  · intro c hc' d hd' hlevel
    exact h.keyed c (hc c hc') d (hc d hd') hlevel
  · intro c hc' ns hns
    rw [ht] at hns
    exact h.shut c (hc c hc') ns hns

theorem Chained.narrows (h : s.Chained) (ht : s.Narrows t) : t.Chained := by
  apply h.of_subset
  · intro c hc
    exact (ht.chains c hc).1
  · rw [ht.template]

/-- An entry opens no second chain at a level. -/
theorem chains_keyed {e : Entry} {cs : List Chain}
    (hcs : ∀ c ∈ cs, ∀ d ∈ cs, c.level = d.level → c = d)
    (hnode : e.isBranch = false → ∀ c ∈ cs, c.level < level) :
    ∀ c ∈ e.chains level cs, ∀ d ∈ e.chains level cs, c.level = d.level → c = d := by
  rintro ⟨j, b⟩ hmem ⟨k, b'⟩ hmem' hlevel
  obtain rfl : j = k := hlevel
  rcases Entry.mem_chains hmem with ⟨c, hc, hj, helse⟩ | ⟨hc, _, _, he⟩ <;>
    rcases Entry.mem_chains hmem' with ⟨d, hd, hk, helse'⟩ | ⟨hd, _, _, he'⟩
  · obtain rfl := hcs c hc d hd (hj.symm.trans hk)
    obtain rfl : b = b' := Bool.eq_iff_iff.mpr (helse.trans helse'.symm)
    rfl
  · obtain ⟨rfl, -⟩ := Chain.mk.inj hd
    have hlt := hnode (he' ▸ rfl) c hc
    exact (hlt.ne hj.symm).elim
  · obtain ⟨rfl, -⟩ := Chain.mk.inj hc
    have hlt := hnode (he ▸ rfl) d hd
    exact (hlt.ne hk.symm).elim
  · exact hc.trans hd.symm

/-- Behind an entry, the chains above its level are where they were, and the chain at its level, if
there is one, ends with the branch of the entry. -/
theorem chains_shut {e : Entry} {cs : List Chain} {children : List Node}
    (hkeyed : ∀ c ∈ cs, ∀ d ∈ cs, c.level = d.level → c = d)
    (hcs : ∀ c ∈ cs, c.level ≤ level ∧
      ∃ body, Outline.listAt? c.level children = some body ∧ c.Ends body ∧ c.Shut body)
    (hbranch : e.isBranch = true → ∃ c ∈ cs, c.level = level ∧ c.hasElse = false)
    (hnode : e.isBranch = false → ∀ c ∈ cs, c.level < level) :
    ∀ c ∈ e.chains level cs, ∀ ns,
      Outline.listAt? c.level (Outline.modifyAt e.into level children) = some ns → c.Shut ns := by
  intro c hc ns hns
  rcases Entry.mem_chains hc with ⟨d, hd, hlevel, helse⟩ | ⟨rfl, -⟩
  · obtain ⟨hle, body, hbody, ⟨front, branches, span, rfl, -, -⟩, hshut⟩ := hcs d hd
    rw [hlevel] at hns
    rcases hle.lt_or_eq with hlt | rfl
    · rw [Outline.listAt?_modifyAt_of_lt _ hlt, hbody] at hns
      obtain rfl := Option.some.inj hns
      intro hc
      exact hshut.mapBody _ ((helse.mp hc).resolve_right fun h => hlt.ne h.1)
    · obtain ⟨b, rfl⟩ := Entry.eq_branch_of_mem hnode hd
      rw [Outline.listAt?_modifyAt, hbody] at hns
      obtain rfl := Option.some.inj hns
      obtain ⟨d', hd', hlevel', hfalse⟩ := hbranch rfl
      obtain rfl := hkeyed d' hd' d hd hlevel'
      refine Chain.shut_addBranch fun hc => ?_
      have hlast := ((helse.mp hc).resolve_left (by simp [hfalse])).2
      simpa [Entry.isLast] using hlast
  · intro helse
    cases helse

/-- An entry keeps the chains in order. -/
theorem Chained.enter {e : Entry} {opens : Bool} (h : s.Chained) (hs : s.Sound P)
    (hframes : s.frames = down level)
    (hbranch : e.isBranch = true → ∃ c ∈ s.chains, c.level = level ∧ c.hasElse = false)
    (hnode : e.isBranch = false → ∀ c ∈ s.chains, c.level < level) :
    (s.enter level e opens).Chained := by
  have hcs : ∀ c ∈ s.chains, c.level ≤ level ∧
      ∃ body, Outline.listAt? c.level s.template.children = some body ∧ c.Ends body ∧
        c.Shut body := by
    intro c hc
    have hle := hs.leveled.chains c hc
    rw [hframes, length_down] at hle
    obtain ⟨body, hbody, hends⟩ := hs.chains c hc
    exact ⟨hle, body, hbody, hends, h.shut c hc body hbody⟩
  constructor
  · exact chains_keyed h.keyed hnode
  · exact chains_shut h.keyed hcs hbranch hnode

/-- Each line keeps the chains in order. -/
theorem Chained.transition (h : s.Chained) (hs : s.Sound P) (ht : Transition P l s t) :
    t.Chained := by
  cases ht with
  | blank => exact h
  | dropped ht => exact (h.narrows ht).of_subset (fun _ => id) rfl
  | id hp => exact (h.narrows hp.narrows).of_subset (fun _ => id) rfl
  | props hp => exact (h.narrows hp.narrows).of_subset (fun _ => id) rfl
  | classes hp => exact (h.narrows hp.narrows).of_subset (fun _ => id) rfl
  | field ht => exact (h.narrows ht).of_subset (fun _ => id) rfl
  | classAlias ht => exact (h.narrows ht).of_subset (fun _ => id) rfl
  | @entry t content jump ds level m e opens hp _ _ _ hbranch hnode =>
    have henter : (t.enter level e opens).Chained :=
      (h.narrows hp.narrows).enter (hs.narrows hp.narrows) hp.frames hbranch hnode
    exact henter.of_subset (fun _ => id) rfl

end Outliner

namespace Builder

open Node Outline

variable {b : Builder} {s : Outliner} {ls : List Line}

/-! ## The invariant -/

/-- What holds of the places between any two lines. -/
structure Coherent (b : Builder) : Prop where
  /-- The levels of the open lines, from the innermost out, go down to -1 without a gap. -/
  levels : b.stack.map Frame.level = (down b.stack.length).map fun k : Nat => (k : Int) - 1
  /-- The outermost open line is the template itself. -/
  outermost : b.stack.getLast? = some ⟨root, -1⟩
  /-- The list of any other is the children of the element, the body of the loop or the body of the
  last branch of the conditional that ends the list of the next one. -/
  frames : ∀ before f g after, b.stack = before ++ f :: g :: after → ∃ front c,
    b.heap.nodesAt? g.children = some (front ++ [c]) ∧ b.heap.bodyOf? c = some f.children
  /-- A level has one chain at most. -/
  keyed : ∀ c ∈ b.chains, ∀ d ∈ b.chains, c.1 = d.1 → c = d
  /-- A chain is no deeper than the next line can be. -/
  bounded : ∀ c ∈ b.chains, 0 ≤ c.1 ∧ ∀ top ∈ b.stack.head?, c.1 ≤ top.level + 1
  /-- The conditional of a chain ends the list of the open line one level up, and the chain is
  marked exactly when the last branch has no test. -/
  chains : ∀ c ∈ b.chains, ∃ f ∈ b.stack, f.level = c.1 - 1 ∧ ∃ front span,
    b.heap.nodesAt? f.children = some (front ++ [.conditional c.2.branches span]) ∧
      ∃ init last, b.heap.branchesAt? c.2.branches = some (init ++ [last]) ∧
        (c.2.hasElse = true ↔ last.test = none)
  apart : b.propsLevel = none ∨ b.classesLevel = none
  props : ∀ base ∈ b.propsLevel,
    base = 0 ∧ b.header.props ≠ none ∧ b.heap.nodesAt? root = some []
  classes : ∀ base ∈ b.classesLevel,
    base = 0 ∧ b.header.aliases ≠ none ∧ b.heap.nodesAt? root = some []

theorem Mirrors.length_stack (h : b.Mirrors s) : b.stack.length = s.frames.length + 1 := by
  simpa using congrArg List.length h.levels

theorem Mirrors.levels_eq (h : b.Mirrors s) (hs : s.Leveled) :
    b.stack.map Frame.level = (down b.stack.length).map fun k : Nat => (k : Int) - 1 := by
  have hdown : ∀ n, (down n).map (Nat.cast : Nat → Int) ++ [-1] =
      (down (n + 1)).map fun k : Nat => (k : Int) - 1 := by
    intro n
    induction n with
    | zero => rfl
    | succ n ih =>
      rw [down_succ, List.map_cons, List.cons_append, ih, down_succ (n + 1), List.map_cons]
      simp
  rw [h.levels, hs.frames, hdown, h.length_stack]

/-- Each open line is one level below the next one out. -/
theorem level_succ {before after : List Frame} {f g : Frame} {n : Nat}
    (h : (before ++ f :: g :: after).map Frame.level =
      (down n).map fun k : Nat => (k : Int) - 1) : f.level = g.level + 1 := by
  induction before generalizing n with
  | nil =>
    rcases n with _ | _ | n
    · cases h
    · exact absurd (congrArg List.length h) (by simp)
    · rw [down_succ, down_succ] at h
      obtain ⟨hf, h⟩ := List.cons.inj h
      obtain ⟨hg, -⟩ := List.cons.inj h
      dsimp only at hf hg
      omega
  | cons e before ih =>
    cases n with
    | zero => cases h
    | succ n =>
      rw [down_succ] at h
      exact ih (List.cons.inj h).2

/-- The list of an open line is held by the last node of the list of the next one out. -/
theorem exists_body {ns body body' : List Node} {d r r' : Nat} (h : LiesAt ns d r body)
    (h' : LiesAt ns (d + 1) r' body') : ∃ front c,
      (layout root ns).nodesAt? r = some (front ++ [c]) ∧
        (layout root ns).bodyOf? c = some r' := by
  have hnext := h'.1
  rw [listAt?_add, h.1, Option.bind_some] at hnext
  obtain ⟨front, n, inner, rfl, hn, hinner⟩ := listAt?_succ_eq_some hnext
  obtain rfl := Option.some.inj hinner
  refine ⟨cellsIn (r + 1) front, n.cell (r + 1 + placesIn front), ?_, h.bodyOf? hn h'.2⟩
  have hnodes := h.nodesAt?
  rw [cellsIn_append] at hnodes
  exact hnodes

/-- The conditional of a chain ends the list at its level. -/
theorem exists_conditional {ns front body : List Node} {bs : List (Branch Node)}
    {span : Option Span} {d r q : Nat} (h : LiesAt ns d q body)
    (hr : BranchesAt ns d r front bs span) : ∃ cells,
      (layout root ns).nodesAt? q = some (cells ++ [.conditional r span]) := by
  obtain ⟨hbody, hq⟩ := h
  rw [hr.1] at hbody
  obtain rfl := Option.some.inj hbody
  have hsize := hr.2
  simp only [placesIn_append, placesIn, places] at hq
  have hplace : q + 1 + placesIn front = r := by omega
  have hnodes := LiesAt.nodesAt? ⟨hr.1, by simpa only [placesIn_append, placesIn, places] using hq⟩
  rw [cellsIn_append, cellsIn, cellsIn, hplace] at hnodes
  exact ⟨_, hnodes⟩

theorem Mirrors.outermost (h : b.Mirrors s) : b.stack.getLast? = some ⟨root, -1⟩ := by
  obtain ⟨inner, last, hstack, -, hlast⟩ := List.map_eq_append_iff.mp h.levels
  obtain ⟨⟨r, level⟩, rfl, hlevel⟩ := List.map_eq_singleton_iff.mp hlast
  dsimp only at hlevel
  subst hlevel
  obtain ⟨d, body, hd, hbody, hr⟩ := h.frames ⟨r, -1⟩ (by simp [hstack])
  obtain rfl : d = 0 := by
    dsimp only at hd
    omega
  obtain rfl := Option.some.inj hbody
  obtain rfl : r = root := Nat.add_eq_right.mp hr
  rw [hstack, List.getLast?_concat]

/-- The branches of a conditional have one place. -/
theorem eq_of_branchesAt {ns front front' : List Node} {bs bs' : List (Branch Node)}
    {span span' : Option Span} {d r r' : Nat} (h : BranchesAt ns d r front bs span)
    (h' : BranchesAt ns d r' front' bs' span') : r = r' := by
  obtain ⟨hbody, hr⟩ := h
  obtain ⟨hbody', hr'⟩ := h'
  rw [hbody] at hbody'
  obtain ⟨-, hlast⟩ := List.append_inj' (Option.some.inj hbody') rfl
  obtain ⟨rfl, -⟩ := Node.conditional.inj (List.cons.inj hlast).1
  omega

theorem Mirrors.keyed (h : b.Mirrors s) (hc : s.Chained) :
    ∀ c ∈ b.chains, ∀ d ∈ b.chains, c.1 = d.1 → c = d := by
  rintro ⟨j, c⟩ hmem ⟨k, d⟩ hmem' rfl
  obtain ⟨c', hc', hlevel, helse, front, bs, span, hbranches⟩ := h.exists_branches hmem
  obtain ⟨d', hd', hlevel', helse', front', bs', span', hbranches'⟩ := h.exists_branches hmem'
  obtain rfl := hc.keyed c' hc' d' hd' (by omega)
  have hplace := eq_of_branchesAt hbranches hbranches'
  obtain ⟨r, done⟩ := c
  obtain ⟨r', done'⟩ := d
  obtain rfl : r = r' := hplace
  obtain rfl : done = done' := helse.trans helse'.symm
  rfl

theorem Mirrors.bounded (h : b.Mirrors s) (hs : s.Leveled) :
    ∀ c ∈ b.chains, 0 ≤ c.1 ∧ ∀ top ∈ b.stack.head?, c.1 ≤ top.level + 1 := by
  intro c hc
  obtain ⟨c', hc', hlevel, -⟩ := h.exists_branches hc
  obtain ⟨top, rest, hstack, htop⟩ := h.exists_top
  have hle := hs.chains c' hc'
  rw [Outliner.nextLevel_eq hs] at htop
  rw [hstack]
  refine ⟨by omega, fun t ht => ?_⟩
  obtain rfl := Option.some.inj ht
  omega

/-- A level that a line can have is one below an open line. -/
theorem Mirrors.exists_frame (h : b.Mirrors s) (hs : s.Leveled) {d : Nat}
    (hd : d ≤ s.frames.length) : ∃ f ∈ b.stack, f.level = (d : Int) - 1 ∧
      ∃ body, LiesAt s.template.children d f.children body := by
  have hmem : (d : Int) - 1 ∈ b.stack.map Frame.level := by
    rw [h.levels_eq hs, h.length_stack, down]
    refine List.mem_map.mpr ⟨d, ?_, rfl⟩
    simpa using Nat.lt_succ_of_le hd
  obtain ⟨f, hf, hlevel⟩ := List.mem_map.mp hmem
  obtain ⟨d', body, hd', hlies⟩ := h.frames f hf
  obtain rfl : d' = d := by omega
  exact ⟨f, hf, hlevel, body, hlies⟩

/-- The conditional of a chain lies at the end of the list one level up. -/
theorem Mirrors.chains_marked (h : b.Mirrors s) {P : List Part → Prop} (hs : s.Sound P)
    (hc : s.Chained) : ∀ c ∈ b.chains, ∃ f ∈ b.stack, f.level = c.1 - 1 ∧ ∃ front span,
      b.heap.nodesAt? f.children = some (front ++ [.conditional c.2.branches span]) ∧
        ∃ init last, b.heap.branchesAt? c.2.branches = some (init ++ [last]) ∧
          (c.2.hasElse = true ↔ last.test = none) := by
  intro c hmem
  obtain ⟨c', hc', hlevel, helse, front, bs, span, hbranches⟩ := h.exists_branches hmem
  obtain ⟨f, hf, hflevel, body, hlies⟩ := h.exists_frame hs.leveled (hs.leveled.chains c' hc')
  obtain ⟨cells, hnodes⟩ := exists_conditional hlies hbranches
  obtain ⟨ns, hns, hends⟩ := hs.chains c' hc'
  have hshut := hc.shut c' hc' ns hns
  rw [hbranches.1] at hns
  obtain rfl := Option.some.inj hns
  obtain ⟨init, last, rfl, hlast⟩ := hends.hasElse_iff hshut
  have hcells := hbranches.branchesAt?
  rw [cellsOf_append] at hcells
  rw [h.heap, helse]
  exact ⟨f, hf, by rw [hflevel, hlevel], cells, span, hnodes, _, _, hcells, hlast⟩

/-- A builder that mirrors a sound outliner is coherent. -/
theorem Mirrors.coherent (h : b.Mirrors s) {P : List Part → Prop} (hs : s.Sound P)
    (hc : s.Chained) : b.Coherent := by
  have hlevels := h.levels_eq hs.leveled
  constructor
  case levels => exact hlevels
  case outermost => exact h.outermost
  case frames =>
    intro before f g after hstack
    rw [hstack] at hlevels
    have hlevel := level_succ hlevels
    obtain ⟨d, body, hd, hlies⟩ := h.frames g (by simp [hstack])
    obtain ⟨d', body', hd', hlies'⟩ := h.frames f (by simp [hstack])
    obtain rfl : d' = d + 1 := by omega
    rw [h.heap]
    exact exists_body hlies hlies'
  case keyed => exact h.keyed hc
  case bounded => exact h.bounded hs.leveled
  case chains => exact h.chains_marked hs hc
  case apart =>
    rw [h.propsLevel, h.classesLevel, Option.map_eq_none_iff, Option.map_eq_none_iff]
    exact hs.apart
  case props =>
    intro base hbase
    rw [h.propsLevel] at hbase
    obtain ⟨k, hk, rfl⟩ := Option.map_eq_some_iff.mp hbase
    obtain ⟨rfl, hprops, hchildren⟩ := hs.props k hk
    rw [h.header, h.heap, hchildren]
    exact ⟨rfl, hprops, rfl⟩
  case classes =>
    intro base hbase
    rw [h.classesLevel] at hbase
    obtain ⟨k, hk, rfl⟩ := Option.map_eq_some_iff.mp hbase
    obtain ⟨rfl, haliases, hchildren⟩ := hs.classes k hk
    rw [h.header, h.heap, hchildren]
    exact ⟨rfl, haliases, rfl⟩

/-- Reading lines in place has a result, which is that of reading the lines. -/
theorem Mirrors.run (h : b.Mirrors s) (hs : s.Sound fun _ => True) (hc : s.Chained)
    (hls : ∀ l ∈ ls, Unbroken l.text) : ∃ b', ls.foldlM Builder.step b = some b' ∧
      b'.Mirrors (ls.foldl Outliner.step s) ∧ b'.Coherent := by
  induction ls generalizing b s with
  | nil => exact ⟨b, rfl, h, h.coherent hs hc⟩
  | cons l ls ih =>
    obtain ⟨hl, hls⟩ := List.forall_mem_cons.mp hls
    obtain ⟨b', hb', hstep⟩ := h.step hs l
    have htransition := Outliner.transition_step hs.leveled hl (Outliner.yields_true _)
    obtain ⟨b'', hb'', hrun⟩ := ih hstep (hs.transition htransition)
      (hc.transition hs htransition) hls
    refine ⟨b'', ?_, hrun⟩
    rw [List.foldlM_cons, hb', Option.bind_eq_bind, Option.bind_some, hb'']

end Builder

namespace Template

/-- What is known behind some lines of a text. -/
def stateAfter (s : Text) (count : Nat) : Outliner :=
  ((Line.ofText s).take count).foldl Outliner.step (.start (some (wholeSpan s)))

/-- What is known behind some lines of a text when it is read in place. -/
def builtAfter (s : Text) (count : Nat) : Option Builder :=
  ((Line.ofText s).take count).foldlM Builder.step (.start (some (wholeSpan s)))

/-- Reading a text in place fails at none of its lines. What it knows is coherent before the first
line, behind each line and so behind the last one, and it is always what reading the text knows
there, the tree and what has been reported included. -/
theorem coherent_builtAfter (s : Text) :
    (∀ count, ∃ b, builtAfter (unifyNewlines s) count = some b ∧
      b.Mirrors (stateAfter (unifyNewlines s) count) ∧ b.Coherent) ∧
      outline (unifyNewlines s) =
        stateAfter (unifyNewlines s) (Line.ofText (unifyNewlines s)).length := by
  constructor
  · intro count
    apply (Builder.mirrors_start _).run (Outliner.sound_start _) (Outliner.chained_start _)
    intro l hl
    exact unbroken_ofText s l (List.mem_of_mem_take hl)
  · rw [stateAfter, List.take_length, outline]

end Template

end Offside
