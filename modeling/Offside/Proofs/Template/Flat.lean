import Offside.Proofs.Template.Heading

/-! Reading what is written with an indent other than two spaces. Without a report no line of it has
a margin, so each line adds its entry to the outermost list, and the same lines are written of
that, in which there is nothing below any line. -/
namespace Offside

open Text

namespace Node

variable {o : Layout} {level : Nat} {ns ms : List Node} {bs : List (Branch Node)}

theorem linesOf_append : linesOf o level (ns ++ ms) = linesOf o level ns ++ linesOf o level ms := by
  induction ns with
  | nil => rfl
  | cons n ns ih => rw [List.cons_append, linesOf, linesOf, ih, List.append_assoc]

theorem branchLines_concat (hbs : bs ≠ []) (b : Branch Node) (isFirst : Bool) :
    branchLines o level isFirst (bs ++ [b]) =
      branchLines o level isFirst bs ++ linesOfBranch o level false b := by
  induction bs generalizing isFirst with
  | nil => exact (hbs rfl).elim
  | cons c bs ih =>
    rw [List.cons_append, branchLines, branchLines]
    cases bs with
    | nil => simp [branchLines]
    | cons d bs => rw [ih (by simp), List.append_assoc]

/-- Nodes that stand leave lines. -/
theorem linesOf_eq_nil {P : List Part → Prop} (h : ∀ n ∈ ns, n.Stands P) :
    linesOf o level ns = [] ↔ ns = [] := by
  refine ⟨fun hnil => ?_, fun hns => hns ▸ rfl⟩
  cases ns with
  | nil => rfl
  | cons n ns =>
    have hn : n.lines o level = [] := (List.append_eq_nil_iff.mp hnil).1
    cases h n List.mem_cons_self with
    | @element name classes children span =>
      by_cases hled : Led children
      · obtain ⟨ps, span', rest, rfl⟩ := hled
        simp [lines] at hn
      · simp [lines_element_of_not_led hled] at hn
    | led => simp [lines] at hn
    | text => simp [lines] at hn
    | expression => simp [lines] at hn
    | loop => simp [lines] at hn
    | @conditional branches span hne =>
      obtain ⟨⟨test, body, bspan⟩, bs, rfl⟩ := List.exists_cons_of_ne_nil hne
      rw [lines, branchLines, linesOfBranch_eq, linesOfBranch] at hn
      split at hn <;> simp at hn

end Node

/-- The lines of an entry come behind those of the list that it goes to. -/
theorem Entry.linesOf_into {o : Layout} {level : Nat} {e : Entry} {ns : List Node}
    (h : e.isBranch = true → ∃ c : Chain, c.Ends ns) :
    Node.linesOf o level (e.into ns) = Node.linesOf o level ns ++ e.lines o level := by
  cases e with
  | node n =>
    rw [into, Node.linesOf_append, lines, Node.linesOf, Node.linesOf, List.append_nil]
  | branch b =>
    obtain ⟨c, front, branches, span, rfl, hne, -⟩ := h rfl
    rw [into, onLast_concat, Node.addBranch, Node.linesOf_append, Node.linesOf_append, Node.linesOf,
      Node.linesOf, Node.linesOf, Node.lines, Node.lines, Node.branchLines_concat hne, lines]
    simp [Node.linesOf]

theorem Entry.lines_bare (o : Layout) (level : Nat) (e : Entry) :
    e.bare.lines o level = e.lines o level := by
  cases e with
  | node n => exact Node.lines_bare o n level
  | branch b => exact Node.linesOfBranch_bare o b level false

namespace Outliner

variable {s t : Outliner} {o : Layout} {l : Line} {ls : List Line} {ps : List (Nat × Entry)}
  {c : Text} {e : Entry} {k level : Nat}

/-- A line at the left margin that is read without a report adds its entry to the outermost list. -/
theorem exists_linesOf_step (hw : Entry.Written o e c) (he : e.Flush) (hs : s.Sound fun _ => True)
    (h : s.Ready 0) (hl : l.text = c) (hnil : (s.step l).diagnostics = []) :
    ∃ ns, (s.step l).template = { s.template with children := ns } ∧ (s.step l).Ready 0 ∧
      Node.linesOf o 0 ns = Node.linesOf o 0 s.template.children ++ e.lines o 0 ∧
      ((∀ n ∈ s.template.children, n.Flush) → ∀ n ∈ ns, n.Flush) := by
  have hl' : l.text = indentation 2 0 ++ c := by
    rw [hl]
    rfl
  have hfits := fits_of_nil hw h hl' hnil
  obtain ⟨e', he', henters⟩ := enters_step hw h hfits hl'
  have hbranch : e'.isBranch = e.isBranch := by
    rw [← Entry.isBranch_bare e', he', Entry.isBranch_bare]
  have hends : e'.isBranch = true → ∃ c : Chain, c.Ends s.template.children := by
    intro hb
    obtain ⟨chain, hchain, -⟩ := hfits (hbranch ▸ hb)
    obtain ⟨hmem, hlevel⟩ := exists_of_chainAt? hchain
    obtain ⟨body, hbody, hends⟩ := hs.chains chain hmem
    rw [hlevel] at hbody
    obtain rfl := Option.some.inj hbody
    exact ⟨chain, hends⟩
  have hflush : e'.Flush := Entry.flush_bare.mp (he' ▸ Entry.flush_bare.mpr he)
  refine ⟨e'.into s.template.children, henters.reads.template, henters.reads.ready, ?_,
    fun hns => hflush.into hns hends⟩
  rw [Entry.linesOf_into hends, ← Entry.lines_bare o 0 e', he', Entry.lines_bare]

/-- Lines of entries that are read without a report are written again of what they have built. -/
theorem exists_linesOf_run (hs : s.Shallow) (h : s.Ready 0) (ho : o.indentSize ≠ 2)
    (hps : ∀ p ∈ ps, ∃ opens, p.2.Stands Pipe.Readable opens) (hclimbs : Node.Climbs 0 k ps)
    (hk : o.indentSize.toNat = 0 ∨ k ≤ 1) (hunbroken : ∀ l ∈ ls, Unbroken l.text)
    (hls : ls.map Line.text = Node.linesOfEntries o ps)
    (hnil : (ls.foldl step s).diagnostics = []) :
    ∃ ns, (ls.foldl step s).template = { s.template with children := ns } ∧
      Node.linesOf o 0 ns = Node.linesOf o 0 s.template.children ++ Node.linesOfEntries o ps ∧
      ((∀ n ∈ s.template.children, n.Flush) → ∀ n ∈ ns, n.Flush) := by
  induction ps generalizing s ls k with
  | nil =>
    obtain rfl : ls = [] := List.map_eq_nil_iff.mp hls
    exact ⟨s.template.children, rfl, (List.append_nil _).symm, fun hns => hns⟩
  | cons p ps ih =>
    obtain ⟨level, e⟩ := p
    obtain ⟨opens, hstand⟩ := hps _ List.mem_cons_self
    obtain ⟨c, hw⟩ := Entry.exists_written hstand o
    obtain ⟨-, hlevel, hclimbs⟩ := hclimbs
    have hlines : Node.linesOfEntries o ((level, e) :: ps) =
        (indentation o.indentSize level ++ c) :: Node.linesOfEntries o ps := by
      rw [Node.linesOfEntries, List.flatMap_cons, hw.lines]
      rfl
    rw [hlines] at hls ⊢
    obtain ⟨l, ls', rfl, hl, hls'⟩ := exists_cons_of_map hls
    have hline := hunbroken l List.mem_cons_self
    have hls'' : ∀ k ∈ ls', Unbroken k.text := fun k hk => hunbroken k (List.mem_cons_of_mem l hk)
    have htrans := transition_step hs.sound.leveled hline (yields_true _)
    have hstep : (s.step l).diagnostics = [] :=
      nil_of_run (htrans.leveled hs.sound.leveled) hls'' hnil
    have hspaces : Margin.spaces l.text = o.indentSize.toNat * level :=
      hl ▸ Margin.spaces_of_trimmed hw.trimmed _
    have hblank : ¬ Blank l.text := hl ▸ Margin.not_blank_of_trimmed hw.trimmed _
    -- a margin of two spaces would be one level of two
    have hflat : Margin.spaces l.text ≠ 2 := by
      intro htwo
      rw [hspaces] at htwo
      rcases hk with hzero | hk
      · simp [hzero] at htwo
      · obtain rfl | rfl : level = 0 ∨ level = 1 := by omega
        · simp at htwo
        · omega
    obtain ⟨hzero, hshallow⟩ := (hs.step hline hblank hstep).resolve_left hflat
    have hlc : l.text = c := by
      rw [hl, indentation, ← hspaces, hzero]
      rfl
    obtain ⟨ns, htemplate, hready, hns, hflush⟩ :=
      exists_linesOf_step hw hstand.flush hs.sound h hlc hstep
    have hk' : o.indentSize.toNat = 0 ∨ level + 1 ≤ 1 := by
      rw [hspaces, Nat.mul_eq_zero] at hzero
      omega
    obtain ⟨ms, htemplate', hms, hflush'⟩ := ih hshallow hready
      (fun q hq => hps q (List.mem_cons_of_mem _ hq)) hclimbs hk' hls'' hls' hnil
    rw [htemplate] at hflush'
    refine ⟨ms, ?_, ?_, fun hs => hflush' (hflush hs)⟩
    · rw [List.foldl_cons, htemplate', htemplate]
    · have hindent : indentation o.indentSize 0 = indentation o.indentSize level := by
        rw [indentation, indentation, ← hspaces, hzero, Nat.mul_zero]
      rw [hms, htemplate, hns, hw.lines, hindent, List.append_assoc]
      rfl

/-- The lines of a template, written with another indent than two spaces and read without a report,
are written again of what was read. Nothing is below a line there, nor in the header. -/
theorem read_flat {u : Template} (hu : u.HeaderStands)
    (hc : ∀ n ∈ u.children, n.Stands Pipe.Readable) (ho : o.indentSize ≠ 2) (span : Option Span)
    (hl : ∀ l ∈ ls, Unbroken l.text) (hls : ls.map Line.text = (u.sections o).flatten)
    (hnil : (ls.foldl step (start span)).diagnostics = []) :
    (ls.foldl step (start span)).template.header.bare = u.header.bare ∧
      Node.linesOf o 0 (ls.foldl step (start span)).template.children =
        Node.linesOf o 0 u.children ∧
      u.HeaderFlush ∧ ∀ n ∈ (ls.foldl step (start span)).template.children, n.Flush := by
  rw [Template.flatten_sections, Node.linesOf_eq_entries] at hls
  obtain ⟨ls₁, ls₂, rfl, h₁, h₂⟩ := List.map_eq_append_iff.mp hls
  have hl₁ : ∀ l ∈ ls₁, Unbroken l.text := fun l h => hl l (List.mem_append_left _ h)
  have hl₂ : ∀ l ∈ ls₂, Unbroken l.text := fun l h => hl l (List.mem_append_right _ h)
  rw [List.foldl_append] at hnil ⊢
  have hsound := sound_run (sound_start (P := fun _ => True) span) hl₁ (yields_true _)
  obtain ⟨hheading, hheader, hflush⟩ :=
    read_header hu span hl₁ h₁ (Or.inr (nil_of_run hsound.leveled hl₂ hnil))
  obtain ⟨ns, htemplate, hns, hflushed⟩ := exists_linesOf_run (hheading.shallow hsound)
    hheading.ready ho (Node.stands_entriesIn o u.children 0 hc)
    (Node.climbs_entriesIn o u.children 0) (Or.inr (Nat.zero_le 1)) hl₂ h₂ hnil
  rw [htemplate]
  refine ⟨hheader, ?_, hflush.resolve_left ho, hflushed (by simp [hheading.children])⟩
  rw [hns, hheading.children, ← Node.linesOf_eq_entries]
  rfl

end Outliner

end Offside
