import Offside.Proofs.Template.Located
import Offside.Proofs.Template.Sound

/-! The spans of a template that was read and of what was reported about it. The invariant of a run
is that the tree so far was written where its spans say, and that each diagnostic is about
characters of a line or about the class that is missing behind its last dot. -/
namespace Offside

open Text

/-- A field was read from the whole line that its span denotes. -/
def PropsField.Located (s : Text) (f : PropsField) : Prop :=
  ∃ span rest, f.span = some span ∧ span.Ends s [] (f.name ++ rest)

/-- An alias was read from the whole line that its span denotes, and its name is at the start. -/
def ClassAlias.Located (s : Text) (a : ClassAlias) : Prop :=
  ∃ span nameSpan rest, a.span = some span ∧ a.nameSpan = some nameSpan ∧
    span.Ends s [] (a.name ++ rest) ∧ nameSpan.Denotes s a.name

/-- A template was written where its spans say. -/
structure Template.Located (s : Text) (ds : List Diagnostic) (t : Template) : Prop where
  id : t.rawId = none ∧ t.idSpan = none ∨
    ∃ v span, t.rawId = some v ∧ t.idSpan = some span ∧ span.Denotes s v
  props : ∀ p ∈ t.props, (∃ span, p.span = some span ∧ span.Ends s [] ['p', 'r', 'o', 'p', 's']) ∧
    ∀ f ∈ p.fields, f.Located s
  aliases : ∀ b ∈ t.aliases,
    (∃ span, b.span = some span ∧ span.Ends s [] ['c', 'l', 'a', 's', 's', 'e', 's']) ∧
      ∀ a ∈ b.aliases, a.Located s
  children : ∀ n ∈ t.children, n.Located s ds

variable {src line : Text} {l k : Line} {ls : List Line} {m : Mark} {n : Node} {b : Branch Node}
  {f : List Node → List Node} {ns : List Node} {d : Diagnostic} {ds : List Diagnostic}
  {level base : Nat}

theorem startsSolid_of_isIdentifier {name : Text} (h : IsIdentifier name) (rest : Text) :
    StartsSolid (name ++ rest) := by
  obtain ⟨c, s, rfl, -⟩ := h.starts
  exact (solid_of_isIdentifier h).startsSolid.append (by simp)

namespace Margin

variable {column : Nat}

theorem column_of_tab (h : ofLine line = .tab column) : 0 < column ∧ column ≤ line.length := by
  rw [ofLine] at h
  split at h
  · cases h
  · split at h
    · next i hi =>
      obtain rfl := Margin.tab.inj h
      have := (List.findIdx?_eq_some_iff_findIdx_eq.mp hi).1
      omega
    · dsimp only at h
      split at h <;> cases h

/-- A margin is reported at a column of its line. -/
theorem column_of_odd (h : ofLine line = .odd column) : 0 < column ∧ column ≤ line.length := by
  have hblank : ¬ Blank line := by
    intro hb
    rw [ofLine_blank.mpr hb] at h
    cases h
  obtain ⟨hline, -⟩ := eq_replicate_append line
  rw [ofLine] at h
  split at h
  · cases h
  · split at h
    · cases h
    · dsimp only at h
      split at h
      · obtain rfl := Margin.odd.inj h
        refine ⟨Nat.succ_pos _, ?_⟩
        have hne : line.drop (spaces line) ≠ [] := by
          intro hnil
          rw [hnil, List.append_nil] at hline
          exact hblank (hline ▸ blank_replicate _)
        have := List.length_pos_iff.mpr hne
        rw [List.length_drop] at this
        omega
      · cases h

end Margin

/-! ## The tree keeps its places while it grows -/

theorem forall_mem_onLast {α : Type} {P : α → Prop} {f : α → α} {as : List α}
    (h : ∀ a ∈ as, P a) (hf : ∀ a, P a → P (f a)) : ∀ a ∈ onLast f as, P a := by
  rcases List.eq_nil_or_concat' as with rfl | ⟨front, a, rfl⟩
  · exact h
  · rw [onLast_concat]
    intro c hc
    rcases List.mem_append.mp hc with hc | hc
    · exact h c (List.mem_append_left _ hc)
    · obtain rfl := List.mem_singleton.mp hc
      exact hf a (h a (by simp))

theorem exists_onLast_cons {g : Branch Node → Branch Node} (hg : ∀ b, (g b).span = b.span)
    (b : Branch Node) (bs : List (Branch Node)) :
    ∃ c cs, onLast g (b :: bs) = c :: cs ∧ c.span = b.span := by
  cases bs with
  | nil => exact ⟨g b, [], rfl, hg b⟩
  | cons c cs => exact ⟨b, onLast g (c :: cs), rfl, rfl⟩

namespace Node.Located

/-- Changing the body of a node keeps its spans in place. -/
theorem mapBody (h : n.Located src ds)
    (hf : ∀ ns, (∀ n ∈ ns, n.Located src ds) → ∀ n ∈ f ns, n.Located src ds) :
    (n.mapBody f).Located src ds := by
  cases h with
  | element hlead hname hsp hspan hchildren =>
    exact .element hlead hname hsp hspan (hf _ hchildren)
  | text hlead hspan hread hes hps hsource => exact .text hlead hspan hread hes hps hsource
  | expression hlead hspan => exact .expression hlead hspan
  | @conditional b bs hheads hbodies =>
    obtain ⟨c, cs, he, hspan⟩ := exists_onLast_cons (g := Branch.mapBody f) (fun _ => rfl) b bs
    rw [Node.mapBody, he, ← hspan]
    refine .conditional ?_ ?_ <;> rw [← he]
    · exact forall_mem_onLast hheads fun c hc => hc
    · exact forall_mem_onLast hbodies fun c hc => hf c.body hc
  | loop hspan hread hbody => exact .loop hspan hread (hf _ hbody)

/-- One more branch with its span in place keeps the spans of a conditional in place. -/
theorem addBranch (h : n.Located src ds) (hb : b.Headed src)
    (hbody : ∀ n ∈ b.body, n.Located src ds) : (n.addBranch b).Located src ds := by
  cases h with
  | element hlead hname hsp hspan hchildren => exact .element hlead hname hsp hspan hchildren
  | text hlead hspan hread hes hps hsource => exact .text hlead hspan hread hes hps hsource
  | expression hlead hspan => exact .expression hlead hspan
  | @conditional c cs hheads hbodies =>
    have hheads' : ∀ k ∈ c :: (cs ++ [b]), k.Headed src := by
      intro k hk
      rcases List.mem_append.mp (show k ∈ (c :: cs) ++ [b] from hk) with hk | hk
      · exact hheads k hk
      · exact List.mem_singleton.mp hk ▸ hb
    have hbodies' : ∀ k ∈ c :: (cs ++ [b]), ∀ n ∈ k.body, n.Located src ds := by
      intro k hk
      rcases List.mem_append.mp (show k ∈ (c :: cs) ++ [b] from hk) with hk | hk
      · exact hbodies k hk
      · exact List.mem_singleton.mp hk ▸ hbody
    exact .conditional hheads' hbodies'
  | loop hspan hread hbody => exact .loop hspan hread hbody

end Node.Located

theorem Outline.located_modifyAt (depth : Nat) (h : ∀ n ∈ ns, n.Located src ds)
    (hf : ∀ ns, (∀ n ∈ ns, n.Located src ds) → ∀ n ∈ f ns, n.Located src ds) :
    ∀ n ∈ Outline.modifyAt f depth ns, n.Located src ds := by
  induction depth generalizing ns with
  | zero => exact hf ns h
  | succ depth ih => exact forall_mem_onLast h fun n hn => hn.mapBody fun ns hns => ih hns

namespace Outliner

variable {s t : Outliner}

/-- What holds between two lines of the text `src`. -/
structure Spanned (src : Text) (s : Outliner) : Prop where
  template : s.template.Located src s.diagnostics
  diagnostics : ∀ d ∈ s.diagnostics, d.Inside src ∨ d.Dangles src

theorem spanned_start (span : Option Span) : (start span).Spanned src where
  template := ⟨Or.inl ⟨rfl, rfl⟩, by simp [start], by simp [start], by simp [start]⟩
  diagnostics := by simp [start]

namespace Spanned

/-- Only the template and what was reported count. -/
theorem congr (h : s.Spanned src) (ht : t.template = s.template)
    (hd : t.diagnostics = s.diagnostics) : t.Spanned src :=
  ⟨by rw [ht, hd]; exact h.template, by rw [hd]; exact h.diagnostics⟩

theorem note (h : s.Spanned src) (hds : ∀ d ∈ ds, d.Inside src ∨ d.Dangles src) :
    (s.note ds).Spanned src where
  template := ⟨h.template.id, h.template.props, h.template.aliases, fun n hn =>
    (h.template.children n hn).mono fun _ => List.mem_append_left ds⟩
  diagnostics d hd := (List.mem_append.mp hd).elim (h.diagnostics d) (hds d)

theorem report (h : s.Spanned src) (hl : l ∈ Line.ofText src) (hm : l.Reads [] m line)
    (p : Problem) {length : Nat} (hlength : length ≤ line.length) :
    (s.report m p length).Spanned src := by
  refine h.note fun d hd => ?_
  obtain rfl := List.mem_singleton.mp hd
  have hpos := List.length_pos_iff.mpr hm.1
  exact Diagnostic.About.placed (Or.inl (Diagnostic.among_diagnose m p hlength hpos)) hm hl

/-- A margin is reported in place. -/
theorem report_column (h : s.Spanned src) (hl : l ∈ Line.ofText src) {column : Nat}
    (hcolumn : 0 < column ∧ column ≤ l.text.length) (p : Problem) :
    (s.report (l.mark column) p 1).Spanned src := by
  refine h.note fun d hd => Or.inl ?_
  obtain rfl := List.mem_singleton.mp hd
  obtain ⟨front, c, back, htext, hfront⟩ : ∃ front c back, l.text = front ++ c :: back ∧
      column = front.length + 1 := by
    have hlt : column - 1 < l.text.length := by omega
    refine ⟨l.text.take (column - 1), l.text[column - 1], l.text.drop column, ?_, ?_⟩
    · have hdrop := List.drop_eq_getElem_cons hlt
      rw [Nat.sub_add_cancel hcolumn.1] at hdrop
      rw [← hdrop, List.take_append_drop]
    · rw [List.length_take]
      omega
  have hm : (l.mark column).Before l [c] back := ⟨front, by simpa using htext, by rw [hfront]⟩
  exact Diagnostic.inside_of_before hm hl (by simp) rfl

theorem note_error (h : s.Spanned src) (hl : l ∈ Line.ofText src) (hm : l.Reads [] m line)
    (hd : d.About m line) : (s.note [d]).Spanned src := by
  refine h.note fun e he => ?_
  obtain rfl := List.mem_singleton.mp he
  exact hd.placed hm hl

theorem note_rejected (h : s.Spanned src) (hl : l ∈ Line.ofText src) (hm : l.Reads [] m line)
    (hd : d.Rejects m line) : (s.note [d]).Spanned src :=
  h.note_error hl hm (Or.inl (hd.among hm.1))

theorem modifyAt (h : s.Spanned src) (depth : Nat)
    (hf : ∀ ns, (∀ n ∈ ns, n.Located src s.diagnostics) →
      ∀ n ∈ f ns, n.Located src s.diagnostics) :
    { s with template.children :=
      Outline.modifyAt f depth s.template.children }.Spanned src where
  template := ⟨h.template.id, h.template.props, h.template.aliases,
    Outline.located_modifyAt depth h.template.children hf⟩
  diagnostics := h.diagnostics

theorem add (h : s.Spanned src) (hn : n.Located src s.diagnostics) : (s.add n).Spanned src := by
  refine h.modifyAt s.frames.length fun ns hns k hk => ?_
  rcases List.mem_append.mp hk with hk | hk
  · exact hns k hk
  · exact List.mem_singleton.mp hk ▸ hn

theorem addBranch (h : s.Spanned src) (hb : b.Headed src)
    (hbody : ∀ n ∈ b.body, n.Located src s.diagnostics) :
    { s with template.children :=
      Outline.addBranch s.frames.length b s.template.children }.Spanned src :=
  h.modifyAt s.frames.length fun _ hns =>
    forall_mem_onLast hns fun _ hk => hk.addBranch hb hbody

/-! ## One line -/

/-- What the id line notes and reports is in place. -/
theorem readId (h : s.Spanned src) (hl : l ∈ Line.ofText src) {rest : Text}
    (hm : l.Reads [] m (['#', 'i', 'd'] ++ rest)) :
    (s.readId m level (['#', 'i', 'd'] ++ rest)).Spanned src := by
  rw [Outliner.readId]
  split
  · exact h.report hl hm _ le_rfl
  split
  · exact h.report hl hm _ le_rfl
  split
  · exact h.report hl hm _ le_rfl
  split
  · next d hread => exact h.note_rejected hl hm (TemplateId.rejects_of_read hread)
  · next at_ v hread =>
    have hspan := TemplateId.located_read hl hm hread
    exact ⟨⟨Or.inr ⟨v, _, rfl, rfl, hspan⟩, h.template.props, h.template.aliases,
      h.template.children⟩, h.diagnostics⟩

theorem openProps (h : s.Spanned src) (hl : l ∈ Line.ofText src)
    (hm : l.Reads [] m ['p', 'r', 'o', 'p', 's']) :
    (s.openProps m level ['p', 'r', 'o', 'p', 's']).Spanned src := by
  rw [Outliner.openProps]
  split
  · exact h.report hl hm _ le_rfl
  split
  · exact h.report hl hm _ le_rfl
  have hspan := hm.ends hl solid_props.startsSolid solid_props.startsSolid
  refine ⟨⟨h.template.id, ?_, h.template.aliases, h.template.children⟩, h.diagnostics⟩
  rintro p ⟨⟩
  exact ⟨⟨_, rfl, hspan⟩, by simp⟩

theorem openClasses (h : s.Spanned src) (hl : l ∈ Line.ofText src)
    (hm : l.Reads [] m ['c', 'l', 'a', 's', 's', 'e', 's']) :
    (s.openClasses m level ['c', 'l', 'a', 's', 's', 'e', 's']).Spanned src := by
  rw [Outliner.openClasses]
  split
  · exact h.report hl hm _ le_rfl
  split
  · exact h.report hl hm _ le_rfl
  have hspan := hm.ends hl solid_classes.startsSolid solid_classes.startsSolid
  refine ⟨⟨h.template.id, h.template.props, ?_, h.template.children⟩, h.diagnostics⟩
  rintro b ⟨⟩
  exact ⟨⟨_, rfl, hspan⟩, by simp⟩

/-- What a field notes and reports is in place. -/
theorem readField (h : s.Spanned src) (hl : l ∈ Line.ofText src) (hm : l.Reads [] m line) :
    (s.readField m base level line).Spanned src := by
  have hpos := List.length_pos_iff.mpr hm.1
  rw [Outliner.readField]
  split
  · exact h.report hl hm _ hpos
  split
  · next d hread => exact h.note_rejected hl hm (PropsField.rejects_of_read hread)
  · next field hread =>
    obtain ⟨rest, -, rfl, hname, -, -, -, -, hspan⟩ := PropsField.read_eq_ok hread
    have hstarts := startsSolid_of_isIdentifier hname rest
    refine ⟨⟨h.template.id, ?_, h.template.aliases, h.template.children⟩, h.diagnostics⟩
    intro p hp
    obtain ⟨q, hq, rfl⟩ := Option.map_eq_some_iff.mp hp
    obtain ⟨hblock, hfields⟩ := h.template.props q hq
    refine ⟨hblock, fun f hf => ?_⟩
    rcases List.mem_append.mp hf with hf | hf
    · exact hfields f hf
    · obtain rfl := List.mem_singleton.mp hf
      exact ⟨_, rest, hspan, hm.ends hl hstarts hstarts⟩

/-- What an alias notes and reports is in place. -/
theorem readAlias (h : s.Spanned src) (hl : l ∈ Line.ofText src) (hm : l.Reads [] m line) :
    (s.readAlias m base level line).Spanned src := by
  have hpos := List.length_pos_iff.mpr hm.1
  rw [Outliner.readAlias]
  split
  · exact h.report hl hm _ hpos
  split
  · next d hread => exact h.note_rejected hl hm (ClassAlias.rejects_of_read hread)
  · next a hread =>
    obtain ⟨rest, -, rfl, hname, -, -, hspan, hnameSpan⟩ := ClassAlias.read_eq_ok hread
    have hstarts := startsSolid_of_isIdentifier hname rest
    obtain ⟨back, -, hbefore⟩ := hm.exists_before
    refine ⟨⟨h.template.id, h.template.props, ?_, h.template.children⟩, h.diagnostics⟩
    intro c hc
    obtain ⟨q, hq, rfl⟩ := Option.map_eq_some_iff.mp hc
    obtain ⟨hblock, haliases⟩ := h.template.aliases q hq
    refine ⟨hblock, fun c hc => ?_⟩
    rcases List.mem_append.mp hc with hc | hc
    · exact haliases c hc
    · obtain rfl := List.mem_singleton.mp hc
      exact ⟨_, _, rest, hspan, hnameSpan, hm.ends hl hstarts hstarts, hbefore.left.denotes hl⟩

theorem pushBranch (h : s.Spanned src) (head : BranchHead) (level : Nat) :
    (s.pushBranch head level).Spanned src := by
  rw [pushBranch_eq]
  exact h.congr rfl rfl

/-- The branch that a line opens, and what its body has reported. -/
theorem located_branchOf {head : BranchHead} (hl : l ∈ Line.ofText src)
    (hm : l.Reads [] m line) (hhead : head.IsOf m line) :
    (branchOf head).1.Headed src ∧ (branchOf head).1.span = some head.span ∧
      (∀ n ∈ (branchOf head).1.body, n.Located src (branchOf head).2) ∧
      ∀ d ∈ (branchOf head).2, d.Inside src ∨ d.Dangles src := by
  obtain ⟨written, after, rfl, hspells, hspan, hinline⟩ := hhead
  obtain ⟨u, rfl⟩ := hspells.startsSolid
  have hat : StartsSolid ('@' :: u ++ after) := startsSolid_cons.mpr rfl
  have hends := hm.ends hl hat hat
  rw [branchOf]
  cases hbody : head.inline with
  | none => exact ⟨⟨_, _, after, rfl, hspells, hspan ▸ hends⟩, rfl, by simp, by simp⟩
  | some mb =>
    obtain ⟨m', body⟩ := mb
    obtain ⟨gap, hgap, hreads⟩ := BranchHead.reads_inlineBody hm (hinline ▸ hbody)
    obtain ⟨hnode, hds⟩ := Node.located_readInline hl hreads hspells hgap
    exact ⟨⟨_, _, after, rfl, hspells, hspan ▸ hends⟩, rfl, by simpa using hnode,
      fun d hd => (hds d hd).placed hreads hl⟩

/-- A line that starts a conditional, or goes on with one. -/
theorem readIf (h : s.Spanned src) (hl : l ∈ Line.ofText src) {rest : Text}
    (hm : l.Reads [] m (TestKeyword.ifLine.word ++ rest)) :
    (s.readIf m level (TestKeyword.ifLine.word ++ rest)).Spanned src := by
  rw [Outliner.readIf]
  split
  · next d hread => exact h.note_rejected hl hm (BranchHead.rejects_of_readTested hread)
  · next head hread =>
    obtain ⟨hheaded, hspan, hbody, hds⟩ := located_branchOf hl hm (BranchHead.isOf_readTested hread)
    have hn : (Node.conditional [(branchOf head).1] (some head.span)).Located src
        (s.note (branchOf head).2).diagnostics := by
      have hbody' : ∀ n ∈ (branchOf head).1.body,
          n.Located src (s.note (branchOf head).2).diagnostics :=
        fun n hn => (hbody n hn).mono fun d => List.mem_append_right _
      exact hspan ▸ .conditional (by simpa using hheaded) (by simpa using hbody')
    have h' := (h.note hds).add hn
    have hchains : Spanned src { (s.note (branchOf head).2).add
        (.conditional [(branchOf head).1] (some head.span)) with
        chains := ⟨level, false⟩ :: s.chains } := h'.congr rfl rfl
    exact hchains.pushBranch head level

theorem enterBranch {head : BranchHead} (h : s.Spanned src) (hl : l ∈ Line.ofText src)
    (hm : l.Reads [] m line) (hhead : head.IsOf m line) :
    (s.addBranch head level).Spanned src := by
  obtain ⟨hheaded, -, hbody, hds⟩ := located_branchOf hl hm hhead
  have hbody' : ∀ n ∈ (branchOf head).1.body,
      n.Located src (s.note (branchOf head).2).diagnostics :=
    fun n hn => (hbody n hn).mono fun d => List.mem_append_right _
  have h' := (h.note hds).addBranch hheaded hbody'
  exact Spanned.pushBranch (h'.congr rfl rfl) head level

theorem readElseIf (h : s.Spanned src) (hl : l ∈ Line.ofText src) {rest : Text}
    (hm : l.Reads [] m (TestKeyword.elseIf.word ++ rest)) :
    (s.readElseIf m level (TestKeyword.elseIf.word ++ rest)).Spanned src := by
  rw [Outliner.readElseIf]
  split
  · exact h.report hl hm _ le_rfl
  split
  · exact h.report hl hm _ le_rfl
  split
  · next d hread => exact h.note_rejected hl hm (BranchHead.rejects_of_readTested hread)
  · next head hread => exact h.enterBranch hl hm (BranchHead.isOf_readTested hread)

theorem readElse (h : s.Spanned src) (hl : l ∈ Line.ofText src) {rest : Text}
    (hm : l.Reads [] m (['@', 'e', 'l', 's', 'e'] ++ rest)) :
    (s.readElse m level (['@', 'e', 'l', 's', 'e'] ++ rest)).Spanned src := by
  rw [Outliner.readElse]
  split
  · exact h.report hl hm _ le_rfl
  split
  · exact h.report hl hm _ le_rfl
  · exact Spanned.enterBranch (h.congr rfl rfl) hl hm (BranchHead.isOf_readElse m rest)

theorem readLoop (h : s.Spanned src) (hl : l ∈ Line.ofText src) {rest : Text}
    (hm : l.Reads [] m (['@', 'f', 'o', 'r'] ++ rest)) :
    (s.readLoop m level (['@', 'f', 'o', 'r'] ++ rest)).Spanned src := by
  rw [Outliner.readLoop]
  split
  · exact h.report hl hm _ le_rfl
  · next v i hread =>
    have hat : StartsSolid (['@', 'f', 'o', 'r'] ++ rest) := startsSolid_cons.mpr rfl
    have hn : (Node.loop v i [] (some (m.span (['@', 'f', 'o', 'r'] ++ rest).length))).Located src
        s.diagnostics := .loop (hm.ends hl hat hat) hread (by simp)
    exact (h.add hn).congr rfl rfl

/-- A line that is no directive. -/
theorem readNode (h : s.Spanned src) (hl : l ∈ Line.ofText src) (hm : l.Reads [] m line)
    (hn : n.Located src ds) (hds : ∀ d ∈ ds, d.About m line) :
    ((s.add n).note ds).Spanned src := by
  have h' := (h.note fun d hd => (hds d hd).placed hm hl).add
    (hn.mono fun d => List.mem_append_right s.diagnostics)
  exact h'.congr rfl rfl

/-- What a line of a kind notes and reports is in place. -/
theorem readKind (h : s.Spanned src) (hl : l ∈ Line.ofText src) (hm : l.Reads [] m line)
    {kind : LineKind} (hkind : kind.Heads line) : (s.readKind m level line kind).Spanned src := by
  cases kind with
  | id =>
    obtain ⟨rest, rfl⟩ := hkind
    exact h.readId hl hm
  | props =>
    obtain rfl := hkind
    exact h.openProps hl hm
  | classes =>
    obtain rfl := hkind
    exact h.openClasses hl hm
  | ifLine =>
    obtain ⟨rest, rfl⟩ := hkind
    exact h.readIf hl hm
  | elseIf =>
    obtain ⟨rest, rfl⟩ := hkind
    exact h.readElseIf hl hm
  | elseLine =>
    obtain ⟨rest, rfl⟩ := hkind
    exact h.readElse hl hm
  | forLine =>
    obtain ⟨rest, rfl⟩ := hkind
    exact h.readLoop hl hm
  | pipe =>
    obtain ⟨rest, rfl⟩ := hkind
    obtain ⟨htext, hds⟩ := Pipe.located_read hl hm Pipe.Lead.own
    exact h.readNode hl hm htext fun d hd => Or.inl (hds d hd)
  | expression =>
    obtain ⟨rest, rfl⟩ := hkind
    rw [Outliner.readKind]
    split
    · next d hread => exact h.note_error hl hm (Or.inl (Node.among_of_readExpression hread))
    · next node hread => exact h.add (Node.located_readExpression hl hm .own hread)
  | element =>
    rw [Outliner.readKind]
    split
    · next d hread => exact h.note_error hl hm (Node.about_of_readElement hm.1 hread)
    · next node ds hread =>
      obtain ⟨hn, hds⟩ := Node.located_readElement hl hm .own hread
      exact (h.readNode hl hm hn fun d hd => Or.inl (hds d hd)).congr rfl rfl

theorem settle (h : s.Spanned src) (level : Nat) (kind : LineKind) :
    (s.settle level kind).Spanned src := h.congr rfl rfl

theorem closeHeaders (h : s.Spanned src) (level : Nat) : (s.closeHeaders level).Spanned src :=
  h.congr rfl rfl

theorem readBody (h : s.Spanned src) (hl : l ∈ Line.ofText src) (hm : l.Reads [] m line) :
    (s.readBody m level line).Spanned src := by
  have hpos := List.length_pos_iff.mpr hm.1
  rw [Outliner.readBody]
  split
  · exact ((h.report hl hm .indentJump hpos).settle _ _).readKind hl hm (LineKind.heads_ofText line)
  · exact (h.settle _ _).readKind hl hm (LineKind.heads_ofText line)

/-- What a line notes and reports is in place. -/
theorem step (h : s.Spanned src) (hl : l ∈ Line.ofText src) : (s.step l).Spanned src := by
  rw [Outliner.step]
  split
  · exact h
  · next column hmargin => exact h.report_column hl (Margin.column_of_tab hmargin) .tab
  · next column hmargin => exact h.report_column hl (Margin.column_of_odd hmargin) .oddIndent
  · next level content hmargin =>
    have hm := Margin.reads_ofLine hmargin
    rw [readLevel]
    split
    · exact (h.closeHeaders level).readField hl hm
    · exact (h.closeHeaders level).readAlias hl hm
    · exact (h.closeHeaders level).readBody hl hm

end Spanned

theorem spanned_run (h : s.Spanned src) (hls : ∀ l ∈ ls, l ∈ Line.ofText src) :
    (ls.foldl step s).Spanned src := by
  induction ls generalizing s with
  | nil => exact h
  | cons l ls ih =>
    exact ih (h.step (hls l List.mem_cons_self)) fun k hk => hls k (List.mem_cons_of_mem l hk)

end Outliner

/-! ## Bodies that stay empty -/

namespace Node

variable {o : Option Span}

theorem mem_emptyBranchesIn : o ∈ emptyBranchesIn ns ↔ ∃ n ∈ ns, o ∈ n.emptyBranches := by
  induction ns with
  | nil => simp [emptyBranchesIn]
  | cons n ns ih => simp [emptyBranchesIn, ih]

theorem mem_emptyBranchesOf {bs : List (Branch Node)} : o ∈ emptyBranchesOf bs ↔
    ∃ b ∈ bs, b.body = [] ∧ o = b.span ∨ ∃ n ∈ b.body, o ∈ n.emptyBranches := by
  induction bs with
  | nil => simp [emptyBranchesOf]
  | cons b bs ih =>
    obtain ⟨test, body, span⟩ := b
    cases body <;>
      simp [emptyBranchesOf, emptyBranchesAt, mem_emptyBranchesIn, emptyBranchesIn, ih, or_assoc]

theorem mem_emptyLoopsIn : o ∈ emptyLoopsIn ns ↔ ∃ n ∈ ns, o ∈ n.emptyLoops := by
  induction ns with
  | nil => simp [emptyLoopsIn]
  | cons n ns ih => simp [emptyLoopsIn, ih]

theorem mem_emptyLoopsOf {bs : List (Branch Node)} :
    o ∈ emptyLoopsOf bs ↔ ∃ b ∈ bs, ∃ n ∈ b.body, o ∈ n.emptyLoops := by
  induction bs with
  | nil => simp [emptyLoopsOf]
  | cons b bs ih =>
    obtain ⟨test, body, span⟩ := b
    simp [emptyLoopsOf, emptyLoopsAt, mem_emptyLoopsIn, ih]

/-- The branches without a body are where their lines are. -/
theorem Located.ends_of_emptyBranches (h : n.Located src ds) :
    ∀ o ∈ n.emptyBranches, ∃ span w, o = some span ∧ span.Ends src [] w := by
  induction h with
  | element _ _ _ _ _ ih =>
    intro o ho
    obtain ⟨n, hn, ho⟩ := mem_emptyBranchesIn.mp ho
    exact ih n hn o ho
  | text | expression => rintro o ⟨⟩
  | @conditional b bs hheads _ ih =>
    intro o ho
    obtain ⟨c, hc, ⟨-, rfl⟩ | ⟨n, hn, ho⟩⟩ := mem_emptyBranchesOf.mp ho
    · obtain ⟨span, head, after, hspan, -, hends⟩ := hheads c hc
      exact ⟨span, head ++ after, hspan, hends⟩
    · exact ih c hc n hn o ho
  | loop _ _ _ ih =>
    intro o ho
    obtain ⟨n, hn, ho⟩ := mem_emptyBranchesIn.mp ho
    exact ih n hn o ho

/-- The loops without a body are where their lines are. -/
theorem Located.ends_of_emptyLoops (h : n.Located src ds) :
    ∀ o ∈ n.emptyLoops, ∃ span w, o = some span ∧ span.Ends src [] w := by
  induction h with
  | element _ _ _ _ _ ih =>
    intro o ho
    obtain ⟨n, hn, ho⟩ := mem_emptyLoopsIn.mp ho
    exact ih n hn o ho
  | text | expression => rintro o ⟨⟩
  | @conditional b bs _ _ ih =>
    intro o ho
    obtain ⟨c, hc, n, hn, ho⟩ := mem_emptyLoopsOf.mp ho
    exact ih c hc n hn o ho
  | loop hspan _ _ ih =>
    intro o ho
    rw [emptyLoops] at ho
    rcases List.mem_append.mp ho with ho | ho
    · split at ho
      · obtain rfl := List.mem_singleton.mp ho
        exact ⟨_, _, rfl, hspan⟩
      · cases ho
    · obtain ⟨n, hn, ho⟩ := mem_emptyLoopsIn.mp ho
      exact ih n hn o ho

end Node

/-- The lines of a text are told apart by their numbers. -/
theorem eq_of_number_eq (hk : k ∈ Line.ofText src) (hl : l ∈ Line.ofText src)
    (h : k.number = l.number) : k = l := by
  have hrun : ∀ {ts : List Text} {number offset : Nat}, k ∈ Line.numberFrom number offset ts →
      l ∈ Line.numberFrom number offset ts → k = l := by
    intro ts
    induction ts with
    | nil => simp [Line.numberFrom]
    | cons t ts ih =>
      intro number offset hk hl
      rcases List.mem_cons.mp hk with rfl | hk <;> rcases List.mem_cons.mp hl with rfl | hl
      · rfl
      · have := (Line.le_of_mem_numberFrom hl).1
        simp only at h
        omega
      · have := (Line.le_of_mem_numberFrom hk).1
        simp only at h
        omega
      · exact ih hk hl
  exact hrun hk hl

namespace Diagnostic

variable {span : Span} {before w : Text}

theorem inside_of_ends (h : span.Ends src before w) (hd : d.span = some span) : d.Inside src := by
  obtain ⟨l, hl, hwithin, hslice, htrimmed, -⟩ := h
  refine ⟨l, hl, span, hd, hwithin, ?_⟩
  have hlength := congrArg List.length hslice
  have hpos := List.length_pos_iff.mpr htrimmed.ne_nil
  obtain ⟨front, after, rfl, hoffset⟩ := Line.exists_of_mem_ofText hl
  obtain ⟨-, -, hstart, hstop, hcolumn, hordered, hend⟩ := hwithin
  rw [Span.slice, Text.slice, List.length_take] at hlength
  simp only [List.length_append] at hlength ⊢
  omega

/-- The end of a line is not inside it. -/
theorem Dangles.not_inside (h : d.Dangles src) : ¬ d.Inside src := by
  rintro ⟨k, hk, span, hspan, hwithin, -⟩
  obtain ⟨l, hl, -, rfl⟩ := h
  obtain rfl := Option.some.inj hspan
  have hnumber := hwithin.start_line
  have hstop := hwithin.stop_column
  simp only [Mark.span, Span.onLine, Line.mark] at hnumber hstop
  obtain rfl : k = l := eq_of_number_eq hk hl (by omega)
  omega

end Diagnostic

/-! ## The whole text -/

namespace Template

/-- The invariant of a whole run. -/
theorem spanned_outline (s : Text) : (outline s).Spanned s :=
  Outliner.spanned_run (Outliner.spanned_start _) fun _ hl => hl

/-- Every span of a template that was read denotes, in its line, what it stands for. -/
theorem spans_read (s : Text) :
    (read s).template.Located (unifyNewlines s) (read s).diagnostics := by
  obtain ⟨h, -⟩ := spanned_outline (unifyNewlines s)
  exact ⟨h.id, h.props, h.aliases, fun n hn =>
    (h.children n hn).mono fun d => List.mem_append_left _⟩

/-- A report is inside the text, unless its span is put behind the end of it. -/
theorem placed_read (s : Text) :
    ∀ d ∈ (read s).diagnostics, d.Inside (unifyNewlines s) ∨ d.Dangles (unifyNewlines s) := by
  have h := spanned_outline (unifyNewlines s)
  intro d hd
  rcases List.mem_append.mp hd with hd | hd
  · exact h.diagnostics d hd
  · left
    rcases List.mem_append.mp hd with hd | hd <;> obtain ⟨o, ho, rfl⟩ := List.mem_map.mp hd
    · obtain ⟨n, hn, ho⟩ := Node.mem_emptyBranchesIn.mp ho
      obtain ⟨span, w, rfl, hends⟩ := (h.template.children n hn).ends_of_emptyBranches o ho
      exact Diagnostic.inside_of_ends hends rfl
    · obtain ⟨n, hn, ho⟩ := Node.mem_emptyLoopsIn.mp ho
      obtain ⟨span, w, rfl, hends⟩ := (h.template.children n hn).ends_of_emptyLoops o ho
      exact Diagnostic.inside_of_ends hends rfl

/-- A diagnostic lies inside a line, unless it is about the class that is missing behind a dot at
the very end of one. -/
theorem inside_iff_not_dangles (s : Text) (d : Diagnostic) (hd : d ∈ (read s).diagnostics) :
    d.Inside (unifyNewlines s) ↔ ¬ d.Dangles (unifyNewlines s) := by
  constructor
  · exact fun hinside hdangles => hdangles.not_inside hinside
  · exact (placed_read s d hd).resolve_right

/-- A line that starts half a level in. -/
def halfLevelSource : Text := [' ', 'p']

theorem inside_iff_not_dangles_halfLevelSource :
    (Mark.mk 1 2 0).diagnose .oddIndent 1 ∈ (read halfLevelSource).diagnostics ∧
      (((Mark.mk 1 2 0).diagnose .oddIndent 1).Inside (unifyNewlines halfLevelSource) ↔
        ¬ ((Mark.mk 1 2 0).diagnose .oddIndent 1).Dangles (unifyNewlines halfLevelSource)) :=
  have hread : (Mark.mk 1 2 0).diagnose .oddIndent 1 ∈ (read halfLevelSource).diagnostics := by
    decide
  ⟨hread, inside_iff_not_dangles halfLevelSource _ hread⟩

/-- An element whose last dot no class follows. -/
def danglingSource : Text := ['d', 'i', 'v', '.']

/-- What is missing at the end of a text is reported behind the text. -/
theorem not_inside_danglingSource :
    ¬ ∀ d ∈ (read danglingSource).diagnostics, d.Inside (unifyNewlines danglingSource) := by
  intro h
  have hread : (Mark.mk 1 5 0).diagnose .className 1 ∈ (read danglingSource).diagnostics := by
    decide
  have hdangles : ((Mark.mk 1 5 0).diagnose .className 1).Dangles (unifyNewlines danglingSource) :=
    ⟨⟨1, 0, danglingSource⟩, by decide, by decide, rfl⟩
  exact hdangles.not_inside (h _ hread)

end Template

end Offside
