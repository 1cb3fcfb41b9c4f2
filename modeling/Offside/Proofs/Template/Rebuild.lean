import Offside.Proofs.Template.Entries
import Offside.Proofs.Template.Says
import Offside.Proofs.Template.Sound

/-! Reading the lines of nodes that stand builds these nodes again, at the level of the lines and
behind what is there already. The chains above the level stay as they are, so a conditional whose
branch has been read can still take the next one. -/
namespace Offside

open Text

theorem Entry.isBranch_bare (e : Entry) : e.bare.isBranch = e.isBranch := by
  cases e <;> rfl

/-- Whether another branch can follow the entry. -/
def Entry.goesOn : Entry → Bool
  | node (.conditional _ _) => true
  | branch b => b.test.isSome
  | _ => false

theorem Entry.goesOn_bare (e : Entry) : e.bare.goesOn = e.goesOn := by
  cases e with
  | node n => cases n <;> rfl
  | branch b =>
    obtain ⟨test, body, span⟩ := b
    rfl

namespace Node

variable {span : Option Span}

/-- A change that looks at no places can be made without them. -/
theorem bare_mapBody {f g : List Node → List Node} (h : ∀ ns, bareList (f ns) = g (bareList ns))
    (n : Node) : (n.mapBody f).bare = n.bare.mapBody g := by
  cases n with
  | conditional bs span =>
    rcases List.eq_nil_or_concat' bs with rfl | ⟨front, ⟨test, body, bspan⟩, rfl⟩
    · rfl
    · simp [mapBody, bare, bareBranches, bareBranch, Branch.mapBody, h]
  | element name classes children span => simp [mapBody, bare, h]
  | loop v i body span => simp [mapBody, bare, h]
  | _ => rfl

theorem bare_mapBody_append (n : Node) (ns : List Node) :
    (n.mapBody (· ++ ns)).bare = n.bare.mapBody (· ++ bareList ns) :=
  bare_mapBody (fun ms => bareList_append ms ns) n

theorem bareList_onLast {f g : Node → Node} (h : ∀ n, (f n).bare = g n.bare) (ns : List Node) :
    bareList (onLast f ns) = onLast g (bareList ns) := by
  rcases List.eq_nil_or_concat' ns with rfl | ⟨front, n, rfl⟩
  · rfl
  · simp [bareList, h]

theorem bareList_modifyAt {f g : List Node → List Node}
    (h : ∀ ns, bareList (f ns) = g (bareList ns)) (d : Nat) (ns : List Node) :
    bareList (Outline.modifyAt f d ns) = Outline.modifyAt g d (bareList ns) := by
  induction d generalizing ns with
  | zero => exact h ns
  | succ d ih => exact bareList_onLast (bare_mapBody ih) ns

theorem exists_of_bare_conditional {n : Node} {b : Branch Node}
    (h : n.bare = (Node.conditional [b] span).bare) :
    ∃ b' span', n = .conditional [b'] span' ∧ bareBranch b' = bareBranch b := by
  cases n with
  | conditional bs span' =>
    have hbs : bareBranches bs = [bareBranch b] := (Node.conditional.inj h).1
    rw [bareBranches_eq_map, List.map_eq_singleton_iff] at hbs
    obtain ⟨b', rfl, hb'⟩ := hbs
    exact ⟨b', span', rfl, hb'⟩
  | _ => cases h

end Node

namespace Outliner

variable {s t u s₀ : Outliner} {level k : Nat} {kind : LineKind} {o : Layout} {c : Text} {l : Line}
  {e : Entry} {opens : Bool} {f g : List Node → List Node}

/-- Lines at a level can be read: the level is open and no header block takes them. -/
structure Ready (level : Nat) (s : Outliner) : Prop where
  leveled : s.Leveled
  level_le : level ≤ s.frames.length
  props : ∀ base ∈ s.propsLevel, level ≤ base
  classes : ∀ base ∈ s.classesLevel, level ≤ base

/-- The lines between two states change the list at a level and nothing above it. -/
structure Reads (level : Nat) (f : List Node → List Node) (s t : Outliner) : Prop where
  template : t.template =
    { s.template with children := Outline.modifyAt f level s.template.children }
  diagnostics : t.diagnostics = s.diagnostics
  ready : t.Ready level
  chains : ∀ k < level, t.chainAt? k = s.chainAt? k

theorem chainAt?_settle (h : k < level ∨ k = level ∧ kind.continuesChain = true) :
    (s.settle level kind).chainAt? k = s.chainAt? k := by
  rw [chainAt?, chainAt?, settle, List.find?_filter]
  congr 1
  funext c
  by_cases hc : c.level = k
  · rcases h with h | ⟨rfl, h⟩
    · simp [hc, h]
    · simp [hc, h]
  · simp [hc]

theorem closeHeaders_of_ready (h : s.Ready level) :
    s.closeHeaders level = { s with propsLevel := none, classesLevel := none } := by
  have hp : s.propsLevel.filter (· < level) = none :=
    Option.filter_eq_none_iff.mpr fun base hb => by simpa using h.props base hb
  have hc : s.classesLevel.filter (· < level) = none :=
    Option.filter_eq_none_iff.mpr fun base hb => by simpa using h.classes base hb
  rw [closeHeaders]
  simp only [hp, hc]

/-- The state in which a line at a level is read: what the line ends is closed. -/
def ended (s : Outliner) (level : Nat) (c : Text) : Outliner :=
  (s.closeHeaders level).settle level (LineKind.ofText c)

theorem Ready.ended (h : s.Ready level) (c : Text) :
    (s.ended level c).Leveled ∧ (s.ended level c).frames = down level ∧
      (s.ended level c).propsLevel = none ∧ (s.ended level c).classesLevel = none := by
  have hclose := closeHeaders_of_ready h
  have hleveled := (h.leveled.narrows_closeHeaders level).leveled
  have hlevel : level ≤ (s.closeHeaders level).frames.length := h.level_le
  obtain ⟨hnarrows, hframes, -⟩ := hleveled.narrows_settle hlevel (LineKind.ofText c)
  refine ⟨hnarrows.leveled, hframes, ?_, ?_⟩
  · rw [Outliner.ended, hclose]
    rfl
  · rw [Outliner.ended, hclose]
    rfl

/-- A line at an open level is read as its kind. -/
theorem step_of_margin (h : s.Ready level) (hmargin : Margin.ofLine l.text = .level level c) :
    s.step l = (s.ended level c).readKind (l.mark (2 * level + 1)) level c (LineKind.ofText c) := by
  have hclose := closeHeaders_of_ready h
  have hnext : (s.closeHeaders level).nextLevel = s.frames.length := by
    rw [nextLevel_eq (h.leveled.narrows_closeHeaders level).leveled]
    rfl
  rw [step, hmargin, Outliner.ended]
  simp only [readLevel]
  rw [hclose] at hnext ⊢
  simp only [readBody]
  rw [hnext, if_neg (Nat.not_lt.mpr h.level_le), hnext, Nat.min_eq_left h.level_le]

theorem step_of_ready (h : s.Ready level) (htrim : Trimmed c) (hone : OneLine c)
    (hl : l.text = indentation 2 level ++ c) :
    s.step l = (s.ended level c).readKind (l.mark (2 * level + 1)) level c (LineKind.ofText c) := by
  refine step_of_margin h ?_
  rw [hl]
  exact Margin.ofLine_written htrim hone level

/-- What the line of an entry does at an open level. -/
structure Enters (level : Nat) (e : Entry) (opens : Bool) (s t : Outliner) : Prop where
  reads : Reads level e.into s t
  ready : opens = true → t.Ready (level + 1)
  chain : e.goesOn = true → ∃ c, t.chainAt? level = some c ∧ c.hasElse = false

/-- An entry leaves the chains above its level alone. -/
theorem chainAt?_enter (h : k < level) : (s.enter level e opens).chainAt? k = s.chainAt? k := by
  have hne : (level == k) = false := by
    rw [beq_eq_false_iff_ne]
    omega
  rw [chainAt?, chainAt?, Outliner.enter, Entry.chains.eq_def]
  dsimp only
  split
  · rw [List.find?_cons, hne]
  · rw [List.find?_map]
    have hclose : ∀ c : Chain,
        ((if c.level == level then { c with hasElse := true } else c).level == k) =
          (c.level == k) := by
      intro c
      split <;> rfl
    simp only [Function.comp_def, hclose]
    cases hfind : s.chains.find? (·.level == k) with
    | none => rfl
    | some c =>
      have hc : c.level = k := by simpa using List.find?_some hfind
      have hclevel : ¬ (c.level == level) = true := by
        rw [beq_iff_eq]
        omega
      rw [Option.map_some, if_neg hclevel]
  · rfl

/-- Behind an entry that another branch can follow there is a chain at its level. -/
theorem exists_chainAt?_enter (hfits : e.Fits s level) (h : e.goesOn = true) :
    ∃ c, (s.enter level e opens).chainAt? level = some c ∧ c.hasElse = false := by
  cases e with
  | node n =>
    cases n with
    | conditional branches span =>
      exact ⟨⟨level, false⟩, by simp [chainAt?, Outliner.enter, Entry.chains], rfl⟩
    | _ => cases h
  | branch b =>
    obtain ⟨test, body, span⟩ := b
    cases test with
    | none => cases h
    | some t => exact hfits rfl

/-- Entering an entry that fits is what its line does. -/
theorem enters_enter (h : s.Leveled) (hframes : s.frames = down level) (hp : s.propsLevel = none)
    (hc : s.classesLevel = none) (hfits : e.Fits s level) :
    Enters level e opens s (s.enter level e opens) := by
  have hleveled := h.enter hframes e opens
  have hframes' := frames_enter hframes e opens
  have hlength : (s.enter level e opens).frames.length = level + if opens then 1 else 0 := by
    rw [hframes', length_down]
  have hready : ∀ k ≤ level + (if opens then 1 else 0), (s.enter level e opens).Ready k := by
    intro k hk
    refine ⟨hleveled, hlength ▸ hk, ?_, ?_⟩
    · simp [Outliner.enter, hp]
    · simp [Outliner.enter, hc]
  refine ⟨⟨rfl, rfl, hready level (Nat.le_add_right ..), fun k hk => chainAt?_enter hk⟩, ?_,
    exists_chainAt?_enter hfits⟩
  rintro rfl
  exact hready (level + 1) le_rfl

theorem chainAt?_ended (s : Outliner)
    (hk : k < level ∨ k = level ∧ (LineKind.ofText c).continuesChain = true) :
    (s.ended level c).chainAt? k = s.chainAt? k := by
  rw [Outliner.ended, chainAt?_settle hk]
  rfl

theorem fits_ended (hc : e.isBranch = (LineKind.ofText c).continuesChain) (s : Outliner)
    (level : Nat) : e.Fits (s.ended level c) level ↔ e.Fits s level := by
  constructor
  · intro h hb
    rw [← chainAt?_ended s (Or.inr ⟨rfl, hc ▸ hb⟩)]
    exact h hb
  · intro h hb
    rw [chainAt?_ended s (Or.inr ⟨rfl, hc ▸ hb⟩)]
    exact h hb

/-- A line that says an entry is read as the entry, at any open level whose list can take it. -/
theorem step_saying (hsay : (LineKind.ofText c).Says c e) (h : s.Ready level)
    (hfits : e.Fits s level) (hmargin : Margin.ofLine l.text = .level level c) :
    ∃ e', e'.bare = e.bare ∧ e'.Fits (s.ended level c) level ∧
      s.step l = (s.ended level c).enter level e' e.opens := by
  obtain ⟨-, hframes, -, -⟩ := h.ended c
  have hlength : (s.ended level c).frames.length = level := by rw [hframes, length_down]
  have hfits' := (fits_ended hsay.continues s level).mpr hfits
  obtain ⟨e', he', hread⟩ := hsay.read _ (l.mark (2 * level + 1)) level hlength hfits'
  have hbranch : e'.isBranch = e.isBranch := by
    rw [← Entry.isBranch_bare e', he', Entry.isBranch_bare]
  exact ⟨e', he', fun hb => hfits' (hbranch ▸ hb), by rw [step_of_margin h hmargin, hread]⟩

/-- The line of an entry is read back as the entry. -/
theorem enters_step (hw : Entry.Written o e c) (h : s.Ready level) (hfits : e.Fits s level)
    (hl : l.text = indentation 2 level ++ c) :
    ∃ e', e'.bare = e.bare ∧ Enters level e' e.opens s (s.step l) := by
  have hmargin : Margin.ofLine l.text = .level level c := by
    rw [hl]
    exact Margin.ofLine_written hw.trimmed hw.oneLine level
  obtain ⟨e', he', hfits', hstep⟩ := step_saying hw.saying h hfits hmargin
  obtain ⟨hleveled, hframes, hp, hc⟩ := h.ended c
  have henters : Enters level e' e.opens (s.ended level c)
      ((s.ended level c).enter level e' e.opens) :=
    enters_enter hleveled hframes hp hc hfits'
  refine ⟨e', he', ?_⟩
  rw [hstep]
  refine ⟨⟨henters.reads.template, henters.reads.diagnostics, henters.reads.ready, fun k hk => ?_⟩,
    henters.ready, henters.chain⟩
  rw [henters.reads.chains k hk, chainAt?_ended s (Or.inl hk)]

/-- The line of an entry is left out with a report where the list cannot take it. -/
theorem fits_of_nil (hw : Entry.Written o e c) (h : s.Ready level)
    (hl : l.text = indentation 2 level ++ c) (hnil : (s.step l).diagnostics = []) :
    e.Fits s level := by
  by_contra hfits
  obtain ⟨ds, hne, -, hdrop⟩ :=
    hw.refuse _ (l.mark (2 * level + 1)) level
      (mt (fits_ended hw.saying.continues s level).mp hfits)
  rw [step_of_ready h hw.trimmed hw.oneLine hl, hdrop] at hnil
  exact hne (List.append_eq_nil_iff.mp hnil).2

/-! ## Runs -/

variable {ns ms : List Node} {bs : List (Branch Node)} {n : Node} {b : Branch Node}
  {span : Option Span} {test : Option Text} {body : List Node} {ls : List Line}

theorem Reads.refl (h : s.Ready level) : Reads level (· ++ []) s s := by
  have hid : (fun ns : List Node => ns ++ []) = id := by
    funext ns
    simp
  exact ⟨by rw [hid, Outline.modifyAt_id], rfl, h, fun _ _ => rfl⟩

/-- What is read at a level is put behind what was read there before. -/
theorem Reads.append (h : Reads level (· ++ ns) s t) (h' : Reads level (· ++ ms) t u) :
    Reads level (· ++ (ns ++ ms)) s u := by
  refine ⟨?_, h'.diagnostics.trans h.diagnostics, h'.ready,
    fun k hk => (h'.chains k hk).trans (h.chains k hk)⟩
  rw [h'.template, h.template]
  simp only
  rw [Outline.modifyAt_modifyAt]
  simp [Function.comp_def]

/-- What is read one level deeper goes into the node that was read last. -/
theorem Reads.nest (h : Reads level (· ++ [n]) s t) (h' : Reads (level + 1) (· ++ ms) t u) :
    Reads level (· ++ [n.mapBody (· ++ ms)]) s u := by
  refine ⟨?_, h'.diagnostics.trans h.diagnostics, ?_,
    fun k hk => (h'.chains k (by omega)).trans (h.chains k hk)⟩
  · rw [h'.template, h.template]
    simp only
    rw [Outline.modifyAt_succ_concat]
  · obtain ⟨hleveled, hle, hp, hc⟩ := h'.ready
    exact ⟨hleveled, by omega, fun base hb => (Nat.le_succ level).trans (hp base hb),
      fun base hb => (Nat.le_succ level).trans (hc base hb)⟩

/-- A branch that is read goes to the conditional that was read last. -/
theorem Reads.addBranch (h : Reads level (· ++ [.conditional bs span]) s t)
    (h' : Reads level (Entry.branch b).into t u) :
    Reads level (· ++ [.conditional (bs ++ [b]) span]) s u := by
  refine ⟨?_, h'.diagnostics.trans h.diagnostics, h'.ready,
    fun k hk => (h'.chains k hk).trans (h.chains k hk)⟩
  rw [h'.template, h.template]
  simp only
  rw [Outline.modifyAt_modifyAt]
  simp [Function.comp_def, Entry.into, Node.addBranch]

theorem exists_cons_of_map {a : Text} {as : List Text} (h : ls.map Line.text = a :: as) :
    ∃ l ls', ls = l :: ls' ∧ l.text = a ∧ ls'.map Line.text = as := by
  obtain ⟨l, ls', rfl, rfl, rfl⟩ := List.map_eq_cons_iff.mp h
  exact ⟨l, ls', rfl, rfl, rfl⟩

theorem mem_dropLast_cons {c : Branch Node} (h : c ∈ bs.dropLast) : c ∈ (b :: bs).dropLast := by
  rw [List.dropLast_cons_of_ne_nil fun hnil => by simp [hnil] at h]
  exact List.mem_cons_of_mem b h

/-- The line of a node that stands gives the node, with other lines behind it. -/
theorem exists_reads {as : List Text} (he : (Entry.node n).Stands Pipe.Readable opens)
    (ho : o.indentSize = 2) (h : s.Ready level) (hls : ls.map Line.text = n.lines o level ++ as) :
    ∃ n' t, ∃ ls' : List Line, n'.bare = n.bare ∧ Reads level (· ++ [n']) s t ∧
      ((Entry.node n).opens = true → t.Ready (level + 1)) ∧
      ((Entry.node n).goesOn = true → ∃ c, t.chainAt? level = some c ∧ c.hasElse = false) ∧
      ls'.map Line.text = as ∧ ls.foldl step s = ls'.foldl step t := by
  obtain ⟨c, hw⟩ := Entry.exists_written he o
  have hlines : n.lines o level = [indentation 2 level ++ c] := by
    rw [← ho]
    exact hw.lines level
  rw [hlines] at hls
  obtain ⟨l, ls', rfl, hl, hls'⟩ := exists_cons_of_map hls
  obtain ⟨e', he', henters⟩ := enters_step hw h (Entry.fits_node n s level) hl
  cases e' with
  | branch b => cases he'
  | node n' =>
    have hn : n'.bare = n.bare := by simpa [Entry.bare] using he'
    refine ⟨n', s.step l, ls', hn, henters.reads, henters.ready, fun hg => henters.chain ?_, hls',
      rfl⟩
    rwa [← Entry.goesOn_bare, he', Entry.goesOn_bare]

/-- A node on one line is read back. -/
theorem reads_line (he : (Entry.node n).Stands Pipe.Readable opens) (ho : o.indentSize = 2)
    (h : s.Ready level) (hls : ls.map Line.text = n.lines o level) :
    ∃ n', n'.bare = n.bare ∧ Reads level (· ++ [n']) s (ls.foldl step s) := by
  obtain ⟨n', t, ls', hn', hreads, -, -, hls', hfold⟩ :=
    exists_reads he ho h (hls.trans (List.append_nil _).symm)
  obtain rfl := List.map_eq_nil_iff.mp hls'
  exact ⟨n', hn', hfold ▸ hreads⟩

/-- A node is read back from its line and from the lines of the nodes in it, if these are. -/
theorem reads_nested {head : Node} (he : (Entry.node head).Stands Pipe.Readable opens)
    (hopens : (Entry.node head).opens = true) (ho : o.indentSize = 2) (h : s.Ready level)
    (hlines : n.lines o level = head.lines o level ++ Node.linesOf o (level + 1) ns)
    (hbare : head.bare.mapBody (· ++ Node.bareList ns) = n.bare)
    (hnodes : ∀ t : Outliner, t.Ready (level + 1) → ∀ ls : List Line,
      ls.map Line.text = Node.linesOf o (level + 1) ns →
      ∃ ns', Node.bareList ns' = Node.bareList ns ∧
        Reads (level + 1) (· ++ ns') t (ls.foldl step t))
    (hls : ls.map Line.text = n.lines o level) :
    ∃ n', n'.bare = n.bare ∧ Reads level (· ++ [n']) s (ls.foldl step s) := by
  rw [hlines] at hls
  obtain ⟨n', t, ls', hn', hreads, hready, -, hls', hfold⟩ := exists_reads he ho h hls
  obtain ⟨ns', hns', hreads'⟩ := hnodes t (hready hopens) ls' hls'
  refine ⟨n'.mapBody (· ++ ns'), ?_, ?_⟩
  · rw [Node.bare_mapBody_append, hn', hns', hbare]
  · rw [hfold]
    exact hreads.nest hreads'

/-- The line of a branch that stands gives the branch, with other lines behind it. -/
theorem exists_reads_branch {as : List Text} (he : b.Stands Pipe.Readable opens)
    (ho : o.indentSize = 2) (h : Reads level (· ++ [.conditional bs span]) s₀ s)
    (hfits : ∃ c, s.chainAt? level = some c ∧ c.hasElse = false)
    (hls : ls.map Line.text = Node.linesOfBranch o level false b ++ as) :
    ∃ b' t, ∃ ls' : List Line, Node.bareBranch b' = Node.bareBranch b ∧
      Reads level (· ++ [.conditional (bs ++ [b']) span]) s₀ t ∧
      (b.body.isEmpty = true → t.Ready (level + 1)) ∧
      (b.test ≠ none → ∃ c, t.chainAt? level = some c ∧ c.hasElse = false) ∧
      ls'.map Line.text = as ∧ ls.foldl step s = ls'.foldl step t := by
  obtain ⟨c, hw⟩ := Entry.exists_written (Entry.Stands.branch he) o
  have hlines : Node.linesOfBranch o level false b = [indentation 2 level ++ c] := by
    rw [← ho]
    exact hw.lines level
  rw [hlines] at hls
  obtain ⟨l, ls', rfl, hl, hls'⟩ := exists_cons_of_map hls
  obtain ⟨e', he', henters⟩ := enters_step hw h.ready (fun _ => hfits) hl
  cases e' with
  | node n => cases he'
  | branch b' =>
    have hb : Node.bareBranch b' = Node.bareBranch b := by simpa [Entry.bare] using he'
    refine ⟨b', s.step l, ls', hb, h.addBranch henters.reads, henters.ready,
      fun ht => henters.chain ?_, hls', rfl⟩
    rw [← Entry.goesOn_bare, he', Entry.goesOn_bare]
    simpa [Entry.goesOn, Option.isSome_iff_ne_none] using ht

mutual

/-- The lines of a node give the node back. -/
theorem reads_node (ho : o.indentSize = 2) : ∀ (n : Node), n.Stands Pipe.Readable →
    ∀ (s : Outliner) (level : Nat), s.Ready level → ∀ ls : List Line,
    ls.map Line.text = n.lines o level →
    ∃ n', n'.bare = n.bare ∧ Reads level (· ++ [n']) s (ls.foldl step s)
  | .element name classes children span, hn, s, level, hs, ls, hls => by
    cases hn with
    | element hsel hc =>
      have hled : ¬ Node.Led children := by
        rintro ⟨ps, span', rest, rfl⟩
        cases hc _ List.mem_cons_self
      have hlines : (Node.element name classes children span).lines o level =
          (Node.element name classes [] span).lines o level ++
            Node.linesOf o (level + 1) children := by
        rw [Node.lines_element_of_not_led hled, Node.lines, Node.linesOf]
        · rfl
        · rintro ps span rest ⟨⟩
      exact reads_nested (Entry.Stands.element hsel) rfl ho hs hlines rfl
        (fun t ht => reads_nodes ho children hc t (level + 1) ht) hls
    | @led _ _ ps rest _ span' hname hc hps hrest =>
      have hlines :
          (Node.element name classes (.text ps .inline span' :: rest) span).lines o level =
          (Node.element name classes [.text ps .inline span'] span).lines o level ++
            Node.linesOf o (level + 1) rest := by
        simp [Node.lines, Node.linesOf]
      exact reads_nested (Entry.Stands.led hname hc hps) rfl ho hs hlines rfl
        (fun t ht => reads_nodes ho rest hrest t (level + 1) ht) hls
  | .text ps placement span, hn, s, level, hs, ls, hls => by
    cases hn with
    | text hps => exact reads_line (Entry.Stands.text hps) ho hs hls
  | .expression v span, hn, s, level, hs, ls, hls => by
    cases hn with
    | expression hv => exact reads_line (Entry.Stands.expression hv) ho hs hls
  | .conditional [] span, hn, s, level, hs, ls, hls => by
    cases hn with
    | conditional hne => exact (hne rfl).elim
  | .conditional (b :: bs) span, hn, s, level, hs, ls, hls => by
    cases hn with
    | conditional hne htests hfirst hdrop hbodies =>
      have hb := List.mem_cons_self (a := b) (l := bs)
      obtain ⟨opens, hstand⟩ := Node.stands_headBody (htests b hb) (hbodies b hb) o b.span
      have hlines : (Node.conditional (b :: bs) span).lines o level =
          (Node.conditional [⟨b.test, Node.headBody o b.body, b.span⟩] span).lines o level ++
            Node.bodyLines o level b.body ++ Node.branchLines o level false bs := by
        rw [Node.lines, Node.lines, Node.branchLines, Node.branchLines, Node.branchLines,
          List.append_nil, ← Node.linesOfBranch_eq]
      rw [hlines] at hls
      obtain ⟨ls₁, ls₂, rfl, h₁, h₂⟩ := List.map_eq_append_iff.mp hls
      obtain ⟨n', t, ls', hn', hreads, hready, hchain, hls', hfold⟩ :=
        exists_reads (Entry.Stands.conditional hstand (hfirst b rfl)) ho hs h₁
      obtain ⟨b', span', rfl, hb'⟩ := Node.exists_of_bare_conditional hn'
      obtain ⟨b'', hb'', hreads', hkeep⟩ := reads_body ho b (hbodies b hb) s t level [] b' span' hb'
        hreads (fun he => hready (by simpa [Entry.opens] using he)) ls' hls'
      have hmore : bs ≠ [] →
          ∃ c, (ls'.foldl step t).chainAt? level = some c ∧ c.hasElse = false := by
        intro _
        rw [hkeep]
        exact hchain rfl
      obtain ⟨bs', hbs', hreads''⟩ := reads_branches ho bs
        (fun c hc => htests c (List.mem_cons_of_mem b hc))
        (fun c hc => hdrop c (mem_dropLast_cons hc))
        (fun c hc => hbodies c (List.mem_cons_of_mem b hc)) s _ level [b''] span' hreads' hmore
        ls₂ h₂
      refine ⟨.conditional (b'' :: bs') span', ?_, ?_⟩
      · rw [Node.bare, Node.bare, Node.bareBranches, Node.bareBranches, hb'', hbs']
      · rw [List.foldl_append, hfold]
        exact hreads''
  | .loop v i body span, hn, s, level, hs, ls, hls => by
    cases hn with
    | loop hl hbody =>
      have hlines : (Node.loop v i body span).lines o level =
          (Node.loop v i [] span).lines o level ++ Node.linesOf o (level + 1) body := by
        simp [Node.lines, Node.linesOf]
      exact reads_nested (Entry.Stands.loop hl) rfl ho hs hlines rfl
        (fun t ht => reads_nodes ho body hbody t (level + 1) ht) hls
  | .foreign label, hn, s, level, hs, ls, hls => by
    cases hn

/-- The lines of nodes give the nodes back. -/
theorem reads_nodes (ho : o.indentSize = 2) : ∀ (ns : List Node),
    (∀ n ∈ ns, n.Stands Pipe.Readable) → ∀ (s : Outliner) (level : Nat), s.Ready level →
    ∀ ls : List Line, ls.map Line.text = Node.linesOf o level ns →
    ∃ ns', Node.bareList ns' = Node.bareList ns ∧ Reads level (· ++ ns') s (ls.foldl step s)
  | [], _, s, level, hs, ls, hls => by
    obtain rfl : ls = [] := List.map_eq_nil_iff.mp hls
    exact ⟨[], rfl, Reads.refl hs⟩
  | n :: ns, hns, s, level, hs, ls, hls => by
    obtain ⟨ls₁, ls₂, rfl, h₁, h₂⟩ := List.map_eq_append_iff.mp hls
    obtain ⟨n', hn', hreads⟩ := reads_node ho n (hns n List.mem_cons_self) s level hs ls₁ h₁
    obtain ⟨ns', hns', hreads'⟩ := reads_nodes ho ns
      (fun k hk => hns k (List.mem_cons_of_mem n hk)) _ level hreads.ready ls₂ h₂
    refine ⟨n' :: ns', by rw [Node.bareList, Node.bareList, hn', hns'], ?_⟩
    rw [List.foldl_append]
    exact hreads.append hreads'

/-- The lines of further branches give the branches back. -/
theorem reads_branches (ho : o.indentSize = 2) : ∀ (bs : List (Branch Node)),
    (∀ b ∈ bs, ∀ t ∈ b.test, IsTest t) → (∀ b ∈ bs.dropLast, b.test ≠ none) →
    (∀ b ∈ bs, ¬ Node.Inlined Pipe.Readable b.body → ∀ n ∈ b.body, n.Stands Pipe.Readable) →
    ∀ (s₀ s : Outliner) (level : Nat) (bs₀ : List (Branch Node)) (span : Option Span),
    Reads level (· ++ [.conditional bs₀ span]) s₀ s →
    (bs ≠ [] → ∃ c, s.chainAt? level = some c ∧ c.hasElse = false) →
    ∀ ls : List Line, ls.map Line.text = Node.branchLines o level false bs →
    ∃ bs', Node.bareBranches bs' = Node.bareBranches bs ∧
      Reads level (· ++ [.conditional (bs₀ ++ bs') span]) s₀ (ls.foldl step s)
  | [], _, _, _, s₀, s, level, bs₀, span, hs, _, ls, hls => by
    obtain rfl : ls = [] := List.map_eq_nil_iff.mp hls
    exact ⟨[], rfl, by rwa [List.append_nil]⟩
  | b :: bs, htests, hdrop, hbodies, s₀, s, level, bs₀, span, hs, hchain, ls, hls => by
    have hb := List.mem_cons_self (a := b) (l := bs)
    obtain ⟨opens, hstand⟩ := Node.stands_headBody (htests b hb) (hbodies b hb) o b.span
    rw [Node.branchLines] at hls
    obtain ⟨ls₁, ls₂, rfl, h₁, h₂⟩ := List.map_eq_append_iff.mp hls
    rw [Node.linesOfBranch_eq o level false b.test b.body b.span] at h₁
    obtain ⟨b', t, ls', hb', hreads, hready, hchain', hls', hfold⟩ :=
      exists_reads_branch hstand ho hs (hchain (by simp)) h₁
    obtain ⟨b'', hb'', hreads', hkeep⟩ :=
      reads_body ho b (hbodies b hb) s₀ t level bs₀ b' span hb' hreads hready ls' hls'
    have hmore : bs ≠ [] → ∃ c, (ls'.foldl step t).chainAt? level = some c ∧ c.hasElse = false := by
      intro hne
      rw [hkeep]
      refine hchain' (hdrop b ?_)
      rw [List.dropLast_cons_of_ne_nil hne]
      exact List.mem_cons_self
    obtain ⟨bs', hbs', hreads''⟩ := reads_branches ho bs
      (fun c hc => htests c (List.mem_cons_of_mem b hc))
      (fun c hc => hdrop c (mem_dropLast_cons hc))
      (fun c hc => hbodies c (List.mem_cons_of_mem b hc)) s₀ _ level (bs₀ ++ [b'']) span hreads'
      hmore ls₂ h₂
    refine ⟨b'' :: bs', by rw [Node.bareBranches, Node.bareBranches, hb'', hbs'], ?_⟩
    rw [List.foldl_append, hfold]
    simpa using hreads''

/-- The lines of the body of a branch give the body back. -/
theorem reads_body (ho : o.indentSize = 2) : ∀ (b : Branch Node),
    (¬ Node.Inlined Pipe.Readable b.body → ∀ n ∈ b.body, n.Stands Pipe.Readable) →
    ∀ (s₀ t : Outliner) (level : Nat) (bs₀ : List (Branch Node)) (b' : Branch Node)
      (span : Option Span),
    Node.bareBranch b' = ⟨b.test, Node.bareList (Node.headBody o b.body), none⟩ →
    Reads level (· ++ [.conditional (bs₀ ++ [b']) span]) s₀ t →
    ((Node.headBody o b.body).isEmpty = true → t.Ready (level + 1)) →
    ∀ ls : List Line, ls.map Line.text = Node.bodyLines o level b.body →
    ∃ b'', Node.bareBranch b'' = Node.bareBranch b ∧
      Reads level (· ++ [.conditional (bs₀ ++ [b'']) span]) s₀ (ls.foldl step t) ∧
      (ls.foldl step t).chainAt? level = t.chainAt? level
  | ⟨test, body, bspan⟩, hbody, s₀, t, level, bs₀, b', span, hb', hreads, hready, ls, hls => by
    rcases Node.inlined_or_stands hbody o with ⟨-, hsome⟩ | ⟨hstand, hsome⟩
    · obtain ⟨hhead, hlines⟩ := Node.headBody_of_inlined hsome level
      rw [hhead] at hb'
      rw [hlines] at hls
      obtain rfl : ls = [] := List.map_eq_nil_iff.mp hls
      exact ⟨b', hb', hreads, rfl⟩
    · obtain ⟨hhead, hlines⟩ := Node.headBody_of_not_inlined hsome level
      rw [hhead] at hb' hready
      rw [hlines] at hls
      obtain ⟨ns', hns', hreads'⟩ := reads_nodes ho body hstand t (level + 1) (hready rfl) ls hls
      have hnest := hreads.nest hreads'
      refine ⟨b'.mapBody (· ++ ns'), ?_, ?_, hreads'.chains level (Nat.lt_succ_self level)⟩
      · obtain ⟨test', body', bspan'⟩ := b'
        obtain ⟨rfl, hnil, -⟩ := Branch.mk.inj hb'
        rw [Branch.mapBody, Node.bareBranch, Node.bareBranch, Node.bareList_append, hnil, hns']
        rfl
      · simpa [Node.mapBody] using hnest

end

end Outliner

end Offside
