import Offside.Proofs.Template.Entries

/-! Templates without anything below a line. All that is written of them stands at the left margin,
so that the spaces of a level are of no account. -/
namespace Offside

variable {o : Layout} {n : Node} {b : Branch Node} {ns : List Node} {e : Entry} {opens : Bool}

/-- The layout with another indent. -/
def Layout.sized (o : Layout) (size : Int) : Layout := { o with indentSize := size }

/-- The body of a branch leaves no lines of its own. -/
def Branch.Flush (b : Branch Node) : Prop :=
  b.body = [] ∨ ∀ o, (Node.inlineBody? o b.body).isSome = true

/-- Nothing is written below the lines of a node. -/
def Node.Flush : Node → Prop
  | .element _ _ children _ => children = [] ∨ ∃ ps span, children = [.text ps .inline span]
  | .conditional branches _ => ∀ b ∈ branches, b.Flush
  | .loop _ _ body _ => body = []
  | _ => True

/-- The blocks of a header are empty. -/
structure Template.HeaderFlush (t : Template) : Prop where
  fields : ∀ p ∈ t.props, p.fields = []
  aliases : ∀ b ∈ t.aliases, b.aliases = []

/-- Nothing is written below the line of an entry. -/
def Entry.Flush : Entry → Prop
  | .node n => n.Flush
  | .branch b => b.Flush

/-! ## Places are of no account -/

theorem Branch.flush_bare : (Node.bareBranch b).Flush ↔ b.Flush := by
  obtain ⟨test, body, span⟩ := b
  have hnil : Node.bareList body = [] ↔ body = [] := by
    cases body <;> simp [Node.bareList]
  simp only [Branch.Flush, Node.bareBranch, Node.inlineBody?_bare, hnil]

theorem Node.flush_bare : n.bare.Flush ↔ n.Flush := by
  cases n with
  | element name classes children span =>
    rcases children with _ | ⟨m, _ | ⟨k, ms⟩⟩
    · simp [Node.Flush, bare, bareList]
    · cases m <;> simp [Node.Flush, bare, bareList]
    · simp [Node.Flush, bare, bareList]
  | conditional branches span =>
    rw [bare, Node.Flush, Node.Flush, bareBranches_eq_map, List.forall_mem_map]
    exact forall₂_congr fun b _ => Branch.flush_bare
  | loop v i body span => cases body <;> simp [Node.Flush, bare, bareList]
  | text | expression | foreign => exact Iff.rfl

theorem Node.flush_bareList : (∀ n ∈ bareList ns, n.Flush) ↔ ∀ n ∈ ns, n.Flush := by
  rw [bareList_eq_map, List.forall_mem_map]
  exact forall₂_congr fun n _ => Node.flush_bare

theorem Entry.flush_bare : e.bare.Flush ↔ e.Flush := by
  cases e with
  | node n => exact Node.flush_bare
  | branch b => exact Branch.flush_bare

/-! ## Entries -/

theorem Branch.Stands.flush {P : List Part → Prop} (h : b.Stands P opens) : b.Flush := by
  obtain ⟨test, body, span⟩ := b
  rcases h.body with hnil | ⟨-, hinlined⟩
  · exact Or.inl hnil
  · refine Or.inr fun o => ?_
    cases hinlined <;> simp [Node.inlineBody?]

/-- What a line gives has nothing below it. -/
theorem Entry.Stands.flush {P : List Part → Prop} (h : e.Stands P opens) : e.Flush := by
  cases h with
  | element => exact Or.inl rfl
  | led => exact Or.inr ⟨_, _, rfl⟩
  | text | expression => trivial
  | @conditional b opens span hb =>
    intro c hc
    obtain rfl := List.mem_singleton.mp hc
    exact hb.flush
  | loop => rfl
  | branch hb => exact hb.flush

/-- A list that such an entry is put behind stays as flush as it was. -/
theorem Entry.Flush.into (he : e.Flush) (hns : ∀ n ∈ ns, n.Flush)
    (h : e.isBranch = true → ∃ c : Chain, c.Ends ns) : ∀ n ∈ e.into ns, n.Flush := by
  intro n hn
  cases e with
  | node m =>
    rcases List.mem_append.mp hn with hn | hn
    · exact hns n hn
    · obtain rfl := List.mem_singleton.mp hn
      exact he
  | branch b =>
    obtain ⟨c, front, branches, span, rfl, -, -⟩ := h rfl
    rw [Entry.into, onLast_concat, Node.addBranch] at hn
    rcases List.mem_append.mp hn with hn | hn
    · exact hns n (List.mem_append_left _ hn)
    · obtain rfl := List.mem_singleton.mp hn
      have hlast : (Node.conditional branches span).Flush := hns _ (by simp)
      intro d hd
      rcases List.mem_append.mp hd with hd | hd
      · exact hlast d hd
      · obtain rfl := List.mem_singleton.mp hd
        exact he

/-! ## The spaces of a level are of no account -/

theorem indentation_zero (size : Int) : indentation size 0 = [] := rfl

theorem Branch.Flush.lines_sized (h : b.Flush) (o : Layout) (size : Int) (isFirst : Bool) :
    Node.linesOfBranch (o.sized size) 0 isFirst b = Node.linesOfBranch o 0 isFirst b := by
  obtain ⟨test, body, span⟩ := b
  have hinline : Node.inlineBody? (o.sized size) body = Node.inlineBody? o body := rfl
  rw [Node.linesOfBranch, Node.linesOfBranch, hinline, indentation_zero, indentation_zero]
  rcases h with hnil | hsome
  · obtain rfl : body = [] := hnil
    rfl
  · obtain ⟨t, ht⟩ := Option.isSome_iff_exists.mp (hsome o)
    rw [ht]

/-- A node that is flush is written the same with any indent. -/
theorem Node.Flush.lines_sized (h : n.Flush) (o : Layout) (size : Int) :
    n.lines (o.sized size) 0 = n.lines o 0 := by
  cases n with
  | element name classes children span =>
    rcases h with rfl | ⟨ps, span', rfl⟩
    · rfl
    · rfl
  | conditional branches span =>
    have hbranches : ∀ isFirst, branchLines (o.sized size) 0 isFirst branches =
        branchLines o 0 isFirst branches := by
      induction branches with
      | nil => exact fun _ => rfl
      | cons b bs ih =>
        intro isFirst
        rw [branchLines, branchLines, (h b List.mem_cons_self).lines_sized,
          ih fun c hc => h c (List.mem_cons_of_mem b hc)]
    exact hbranches true
  | loop v i body span =>
    obtain rfl : body = [] := h
    rfl
  | text | expression | foreign => rfl

theorem Node.linesOf_sized (h : ∀ n ∈ ns, n.Flush) (o : Layout) (size : Int) :
    linesOf (o.sized size) 0 ns = linesOf o 0 ns := by
  induction ns with
  | nil => rfl
  | cons n ns ih =>
    rw [linesOf, linesOf, (h n List.mem_cons_self).lines_sized,
      ih fun m hm => h m (List.mem_cons_of_mem n hm)]

/-- A template that is flush is written the same with any indent. -/
theorem Template.write_sized {t : Template} (h : t.HeaderFlush) (hc : ∀ n ∈ t.children, n.Flush)
    (o : Layout) (size : Int) : t.write (o.sized size) = t.write o := by
  have hprops : t.props.map (PropsBlock.lines (o.sized size)) =
      t.props.map (PropsBlock.lines o) := by
    apply Option.map_congr
    intro p hp
    rw [PropsBlock.lines, PropsBlock.lines, h.fields p hp]
    rfl
  have haliases : t.aliases.map (AliasBlock.lines (o.sized size)) =
      t.aliases.map (AliasBlock.lines o) := by
    apply Option.map_congr
    intro b hb
    rw [AliasBlock.lines, AliasBlock.lines, h.aliases b hb]
    rfl
  rw [write, write, lines, lines, sections, sections, hprops, haliases, Node.linesOf_sized hc]

end Offside
