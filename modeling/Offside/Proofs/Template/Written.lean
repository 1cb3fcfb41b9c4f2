import Offside.Proofs.Template.Step

/-! The line of an entry, as it is written. Reading it gives the entry back, wherever it stands, if
the list it goes to can take it. -/
namespace Offside

open Text

namespace Node

variable {c : Char} {name rest t : Text} {classes : List Text} {ps : List Part} {o : Layout}
  {body : List Node}

/-- A written selector leads an element line. -/
theorem ofText_writeSelector (h : IsSelector name classes) (o : Layout) :
    LineKind.ofText (writeSelector o name classes) = .element := by
  obtain ⟨c, s, hcs, hc⟩ := writeSelector_eq_cons h.isName o classes
  have hdot : classes ≠ [] → '.' ∈ writeSelector o name classes := by
    intro hne
    obtain ⟨t, ts, rfl⟩ := List.exists_cons_of_ne_nil hne
    rw [writeSelector]
    split <;> simp
  rw [hcs] at hdot ⊢
  by_cases hne : classes = []
  · obtain ⟨hp, hcl⟩ := h.noHeader hne
    have hname : c :: s = name := by
      rw [← hcs, hne, writeSelector]
      simp
    exact LineKind.ofText_element (Selector.isAsciiWord_of_isNameStart hc) (hname ▸ hp)
      (hname ▸ hcl)
  · refine LineKind.ofText_element (Selector.isAsciiWord_of_isNameStart hc) ?_ ?_
    · intro he
      simpa [he] using hdot hne
    · intro he
      simpa [he] using hdot hne

theorem ofText_writeSelector_append (hn : IsName name) (o : Layout) (classes : List Text)
    (s : Text) : LineKind.ofText (writeSelector o name classes ++ ' ' :: s) = .element := by
  obtain ⟨c, u, hcs, hc⟩ := writeSelector_eq_cons hn o classes
  have hspace : ' ' ∈ c :: (u ++ ' ' :: s) := by simp
  rw [hcs, List.cons_append]
  refine LineKind.ofText_element (Selector.isAsciiWord_of_isNameStart hc) ?_ ?_
  · intro he
    simp [he] at hspace
  · intro he
    simp [he] at hspace

/-- What follows the head of a branch on its line. -/
structure Trails (rest : Text) : Prop where
  eq : rest = [] ∨ ∃ t, rest = ' ' :: t ∧ Trimmed t
  oneLine : OneLine rest

/-- The body of a branch is read back from its line, if it goes there. -/
theorem exists_trail (h : body = [] ∨ Inlined Pipe.Readable body) (o : Layout) :
    ∃ rest, Trails rest ∧
      (∀ level isFirst test span, linesOfBranch o level isFirst ⟨test, body, span⟩ =
        [indentation o.indentSize level ++ (writeHead isFirst test ++ rest)]) ∧
      ∀ m test span, ∃ b, Outliner.branchOf ⟨test, BranchHead.inlineBody m rest, span⟩ = (b, []) ∧
        bareBranch b = ⟨test, bareList body, none⟩ ∧
        (BranchHead.inlineBody m rest).isNone = body.isEmpty := by
  rcases h with rfl | h
  · refine ⟨[], ⟨Or.inl rfl, by simp [OneLine]⟩, fun level isFirst test span => ?_,
      fun m test span => ⟨_, rfl, rfl, rfl⟩⟩
    simp [linesOfBranch, inlineBody?, linesOf]
  · obtain ⟨t, -, hwrite, htrim, hone, -⟩ := readInline_write h o ⟨0, 0, 0⟩
    have hspace : OneLine [' '] := by simp [OneLine]
    refine ⟨' ' :: t, ⟨Or.inr ⟨t, rfl, htrim⟩, hspace.append hone⟩,
      fun level isFirst test span => ?_, fun m test span => ?_⟩
    · simp [linesOfBranch, hwrite]
    · obtain ⟨m', -, hinline⟩ := BranchHead.inlineBody_space htrim m
      obtain ⟨t', k, hwrite', -, -, hread, hk⟩ := readInline_write h o m'
      obtain rfl : t' = t := Option.some.inj (hwrite'.symm.trans hwrite)
      refine ⟨⟨test, [k], some span⟩, ?_, ?_, ?_⟩
      · rw [Outliner.branchOf, hinline]
        simp [hread]
      · rw [bareBranch, ← hk]
        rfl
      · rw [hinline]
        cases h <;> rfl

theorem Trails.trimmed {head : Text} (h : Trails rest) (hhead : Trimmed head) :
    Trimmed (head ++ rest) := by
  rcases h.eq with rfl | ⟨t, rfl, ht⟩
  · rwa [List.append_nil]
  · have := hhead.append ht [' ']
    rwa [List.append_assoc] at this

end Node

namespace Entry

def bare : Entry → Entry
  | node n => node n.bare
  | branch b => branch (Node.bareBranch b)

def lines (o : Layout) (level : Nat) : Entry → List Text
  | node n => n.lines o level
  | branch b => Node.linesOfBranch o level false b

/-- Whether deeper lines go into an entry. -/
def opens : Entry → Bool
  | node (.element _ _ _ _) => true
  | node (.loop _ _ _ _) => true
  | node (.conditional bs _) => bs.all (·.body.isEmpty)
  | branch b => b.body.isEmpty
  | _ => false

/-- An entry can go to the list at a level. -/
def Fits (e : Entry) (s : Outliner) (level : Nat) : Prop :=
  e.isBranch = true → ∃ c, s.chainAt? level = some c ∧ c.hasElse = false

/-- The entry is written on a line that says just this entry. -/
structure Written (o : Layout) (e : Entry) (line : Text) : Prop where
  lines : ∀ level, e.lines o level = [indentation o.indentSize level ++ line]
  trimmed : Trimmed line
  oneLine : OneLine line
  noHeader : (LineKind.ofText line).isHeader = false
  continues : (LineKind.ofText line).continuesChain = e.isBranch
  read : ∀ (s : Outliner) (m : Mark) (level : Nat), s.frames.length = level → e.Fits s level →
    ∃ e', e'.bare = e.bare ∧
      s.readKind m level line (LineKind.ofText line) = s.enter level e' e.opens
  refuse : ∀ (s : Outliner) (m : Mark) (level : Nat), ¬ e.Fits s level →
    s.Drops (s.readKind m level line (LineKind.ofText line)) m.line

theorem fits_node (n : Node) (s : Outliner) (level : Nat) : (node n).Fits s level := by
  intro h
  cases h

/-- What a line that reads as a node has to say about itself. -/
theorem written_node {o : Layout} {n : Node} {line : Text} {kind : LineKind}
    (hkind : LineKind.ofText line = kind) (hheader : kind.isHeader = false)
    (hchain : kind.continuesChain = false)
    (hlines : ∀ level, n.lines o level = [indentation o.indentSize level ++ line])
    (htrim : Trimmed line) (hone : OneLine line)
    (hread : ∀ (s : Outliner) (m : Mark), ∃ n', n'.bare = n.bare ∧
      s.readKind m s.frames.length line kind =
        s.enter s.frames.length (.node n') (node n).opens) :
    Written o (.node n) line where
  lines := hlines
  trimmed := htrim
  oneLine := hone
  noHeader := by rw [hkind, hheader]
  continues := by rw [hkind, hchain, isBranch]
  read s m level hlen _ := by
    obtain ⟨n', hn', hread⟩ := hread s m
    subst hlen
    exact ⟨.node n', by rw [bare, bare, hn'], by rw [hkind, hread]⟩
  refuse s m level h := (h (fits_node n s level)).elim

open Node in
theorem written_element {name : Text} {classes : List Text} {span : Option Span}
    (h : IsSelector name classes) (o : Layout) :
    Written o (.node (.element name classes [] span)) (writeSelector o name classes) := by
  have hends := trimmed_writeSelector h.isName h.areClasses o
  obtain ⟨c, s, hcs, -⟩ := writeSelector_eq_cons h.isName o classes
  refine written_node (ofText_writeSelector h o) rfl rfl (fun level => ?_)
    ⟨by simp [hcs], hends.1, hends.2⟩ (oneLine_writeSelector h.isName h.areClasses o) fun s m => ?_
  · simp [Node.lines, linesOf]
  · obtain ⟨span', -, hread⟩ := readElement_write h.isName h.areClasses o m
    refine ⟨.element name classes [] (some span'), rfl, ?_⟩
    simp [Outliner.readKind, hread, Outliner.enter, Outliner.push, Outliner.add, Outline.add, into,
      chains, opens]

open Node in
/-- An element is written with its text on its line. -/
theorem written_led {name : Text} {classes : List Text} {ps : List Part}
    {span span' : Option Span} (hn : IsName name) (hc : ∀ t ∈ classes, IsClass t)
    (hps : Pipe.Readable ps) (o : Layout) :
    Written o (.node (.element name classes [.text ps .inline span'] span))
      (writeSelector o name classes ++ ' ' :: Pipe.write o.spaceAroundPipe ps) := by
  have hends := trimmed_writeSelector hn hc o
  obtain ⟨c, s, hcs, -⟩ := writeSelector_eq_cons hn o classes
  have htrim : Trimmed (writeSelector o name classes) := ⟨by simp [hcs], hends.1, hends.2⟩
  have hpipe := trimmed_write hps o.spaceAroundPipe
  have hspace : OneLine [' '] := by simp [OneLine]
  refine written_node (ofText_writeSelector_append hn o classes _) rfl rfl (fun level => ?_) ?_
    ((oneLine_writeSelector hn hc o).append (hspace.append (Pipe.oneLine_write hps _)))
    fun s m => ?_
  · simp [Node.lines, linesOf]
  · have := htrim.append hpipe [' ']
    rwa [List.append_assoc] at this
  · obtain ⟨span₁, span₂, qs, -, hqs, hread⟩ := readElement_write_led hn hc hps o m
    refine ⟨.element name classes [.text qs .inline (some span₂)] (some span₁), ?_, ?_⟩
    · simp [Node.bare, bareList, hqs]
    · simp [Outliner.readKind, hread, Outliner.enter, Outliner.push, Outliner.add, Outline.add,
        into, chains, opens]

theorem written_text {ps : List Part} {span : Option Span} (hps : Pipe.Readable ps) (o : Layout) :
    Written o (.node (.text ps .block span)) (Pipe.write o.spaceAroundPipe ps) := by
  obtain ⟨t, ht, -⟩ := Pipe.write_eq o.spaceAroundPipe ps
  refine written_node (by rw [ht, LineKind.ofText_pipe]) rfl rfl (fun level => ?_)
    (Node.trimmed_write hps _) (Pipe.oneLine_write hps _) fun s m => ?_
  · rw [Node.lines]
  · obtain ⟨qs, span', hread, -, hqs⟩ := Pipe.read_write hps m .block o.spaceAroundPipe
    refine ⟨.text qs .block (some span'), ?_, ?_⟩
    · simp [Node.bare, hqs]
    · simp [Outliner.readKind, hread, Outliner.enter, Outliner.add, Outline.add, into, chains,
        opens]

theorem written_expression {v : Text} {span : Option Span} (hv : IsExpression v) (o : Layout) :
    Written o (.node (.expression v span)) (Node.writeExpression v) := by
  have he : Node.writeExpression v = '{' :: '{' :: (' ' :: v ++ [' ', '}', '}']) := rfl
  refine written_node (by rw [he, LineKind.ofText_expression]) rfl rfl (fun level => ?_)
    (Node.trimmed_writeExpression v) (Node.oneLine_writeExpression hv) fun s m => ?_
  · rw [Node.lines]
  · obtain ⟨span', -, hread⟩ := Node.readExpression_write hv m
    refine ⟨.expression v (some span'), rfl, ?_⟩
    simp [Outliner.readKind, hread, Outliner.enter, Outliner.add, Outline.add, into, chains, opens]

/-- A loop is written on a line of its own. -/
theorem written_loop {v i : Text} {span : Option Span} (h : IsLoop v i) (o : Layout) :
    Written o (.node (.loop v i [] span))
      (['@', 'f', 'o', 'r', ' '] ++ v ++ [' ', 'i', 'n', ' '] ++ i) := by
  have hv : OneLine v := (Loop.solid_of_isLoop h).oneLine
  have hone : OneLine (['@', 'f', 'o', 'r', ' '] ++ v ++ [' ', 'i', 'n', ' '] ++ i) := by
    refine OneLine.append (OneLine.append (OneLine.append ?_ hv) ?_) h.oneLine <;> simp [OneLine]
  refine written_node (LineKind.ofText_for _) rfl rfl (fun level => ?_) ⟨by simp, ?_, ?_⟩ hone
    fun s m => ?_
  · simp [Node.lines, Node.linesOf]
  · exact startsSolid_cons.mpr rfl
  · exact h.trimmed.ends.append h.trimmed.ne_nil
  · obtain ⟨line, hline⟩ : ∃ line, line =
      ['@', 'f', 'o', 'r', ' '] ++ v ++ [' ', 'i', 'n', ' '] ++ i := ⟨_, rfl⟩
    refine ⟨.loop v i [] (some (m.span line.length)), rfl, ?_⟩
    rw [Outliner.readKind, Outliner.readLoop, Loop.read?_write h, ← hline]
    simp [Outliner.enter, Outliner.push, Outliner.add, Outline.add, into, chains, opens]

/-! ## Branches -/

variable {k : TestKeyword} {test rest : Text} {b : Branch Node} {o : Layout}

theorem trimmed_test (k : TestKeyword) (t : Text) :
    Trimmed (k.word ++ [' ', '('] ++ t ++ [')']) := by
  refine ⟨by simp, ?_, endsSolid_concat.mpr rfl⟩
  cases k <;> exact startsSolid_cons.mpr rfl

theorem oneLine_test (k : TestKeyword) {t : Text} (ht : IsTest t) :
    OneLine (k.word ++ [' ', '('] ++ t ++ [')']) := by
  have hk : OneLine k.word := by cases k <;> simp [OneLine, TestKeyword.word]
  refine OneLine.append (OneLine.append (hk.append ?_) ht.oneLine) ?_ <;> simp [OneLine]

/-- The first branch of a conditional is written on an `@if` line. -/
theorem written_conditional {t : Text} {body : List Node} {span span' : Option Span}
    (ht : IsTest t) (hbody : body = [] ∨ Node.Inlined Pipe.Readable body) (o : Layout) :
    ∃ line, Written o (.node (.conditional [⟨some t, body, span⟩] span')) line := by
  obtain ⟨rest, htrail, hlines, hread⟩ := Node.exists_trail hbody o
  have hhead := Node.writeHead_if ht.trimmed.ne_nil
  obtain ⟨head, hw⟩ : ∃ head, head = TestKeyword.ifLine.word ++ [' ', '('] ++ t ++ [')'] := ⟨_, rfl⟩
  have htrim : Trimmed head := hw ▸ trimmed_test .ifLine t
  have hone : OneLine head := hw ▸ oneLine_test .ifLine ht
  have hkind : LineKind.ofText (head ++ rest) = .ifLine := by
    rw [hw, List.append_assoc, List.append_assoc, List.append_assoc]
    exact LineKind.ofText_if _
  refine ⟨head ++ rest, written_node hkind rfl rfl (fun level => ?_) (htrail.trimmed htrim)
    (hone.append htrail.oneLine) fun s m => ?_⟩
  · rw [Node.lines, Node.branchLines, Node.branchLines, hlines, hhead, ← hw, List.append_nil]
  · obtain ⟨m', span, -, -, htested⟩ := BranchHead.readTested_write ht .ifLine m rest
    obtain ⟨b, hb, hbare, hopens⟩ := hread m' (some t) span
    refine ⟨.conditional [b] (some span), ?_, ?_⟩
    · simp [Node.bare, Node.bareBranches, hbare, Node.bareBranch]
    · rw [← hw] at htested
      simp only [Outliner.readKind, Outliner.readIf, htested, hb, Outliner.pushBranch_eq, hopens]
      simp [Outliner.enter, Outliner.note, Outliner.add, Outline.add, into, chains, opens]

/-- A branch that does not fit is dropped. -/
theorem drops_of_not_fits {s : Outliner} {m : Mark} {level : Nat} {b : Branch Node} {line : Text}
    {kind : LineKind} (hkind : kind.continuesChain = true) (h : ¬ (branch b).Fits s level) :
    s.Drops (s.readKind m level line kind) m.line := by
  have hchain : ∀ c, s.chainAt? level = some c → c.hasElse = true := by
    intro c hc
    by_contra helse
    exact h fun _ => ⟨c, hc, by simpa using helse⟩
  cases kind with
  | elseIf =>
    rw [Outliner.readKind, Outliner.readElseIf]
    split
    · exact s.drops_report ..
    · next c hc =>
      rw [if_pos (hchain c hc)]
      exact s.drops_report ..
  | elseLine =>
    rw [Outliner.readKind, Outliner.readElse]
    split
    · exact s.drops_report ..
    · next c hc =>
      rw [if_pos (hchain c hc)]
      exact s.drops_report ..
  | _ => cases hkind

/-- A branch with a test is written on an `@elseIf` line. -/
theorem written_elseIf {t : Text} {body : List Node} {span : Option Span} (ht : IsTest t)
    (hbody : body = [] ∨ Node.Inlined Pipe.Readable body) (o : Layout) :
    ∃ line, Written o (.branch ⟨some t, body, span⟩) line := by
  obtain ⟨rest, htrail, hlines, hread⟩ := Node.exists_trail hbody o
  have hhead := Node.writeHead_elseIf t
  obtain ⟨head, hw⟩ : ∃ head, head = TestKeyword.elseIf.word ++ [' ', '('] ++ t ++ [')'] := ⟨_, rfl⟩
  have hkind : LineKind.ofText (head ++ rest) = .elseIf := by
    rw [hw, List.append_assoc, List.append_assoc, List.append_assoc]
    exact LineKind.ofText_elseIf _
  refine ⟨head ++ rest, fun level => ?_, htrail.trimmed (hw ▸ trimmed_test .elseIf t),
    (hw ▸ oneLine_test .elseIf ht : OneLine head).append htrail.oneLine, by rw [hkind]; rfl,
    by rw [hkind]; rfl, fun s m level hlen hfits => ?_, fun s m level h => ?_⟩
  · rw [lines, hlines, hhead, ← hw]
  · obtain ⟨c, hc, helse⟩ := hfits rfl
    obtain ⟨m', span, -, -, htested⟩ := BranchHead.readTested_write ht .elseIf m rest
    obtain ⟨b, hb, hbare, hopens⟩ := hread m' (some t) span
    have hbtest : b.test ≠ none := by
      obtain ⟨btest, bbody, bspan⟩ := b
      obtain rfl : btest = some t := congrArg Branch.test hbare
      simp
    refine ⟨.branch b, by rw [bare, bare, hbare, Node.bareBranch], ?_⟩
    rw [← hw] at htested
    rw [hkind, Outliner.readKind, Outliner.readElseIf, hc]
    simp only [helse, htested]
    rw [if_neg (by simp), Outliner.addBranch_eq hb hlen hbtest, hopens]
    simp [opens]
  · rw [hkind]
    exact drops_of_not_fits rfl h

/-- A branch without a test is written on an `@else` line. -/
theorem written_else {body : List Node} {span : Option Span}
    (hbody : body = [] ∨ Node.Inlined Pipe.Readable body) (o : Layout) :
    ∃ line, Written o (.branch ⟨none, body, span⟩) line := by
  obtain ⟨rest, htrail, hlines, hread⟩ := Node.exists_trail hbody o
  have hhead : Trimmed ['@', 'e', 'l', 's', 'e'] :=
    ⟨by simp, startsSolid_cons.mpr rfl, by simp [EndsSolid, isBlank]⟩
  have hone : OneLine ['@', 'e', 'l', 's', 'e'] := by simp [OneLine]
  have hkind : LineKind.ofText (['@', 'e', 'l', 's', 'e'] ++ rest) = .elseLine := by
    refine LineKind.ofText_else ?_
    rcases htrail.eq with hnil | ⟨t, ht, -⟩
    · exact Or.inl hnil
    · exact Or.inr ⟨t, ht⟩
  refine ⟨['@', 'e', 'l', 's', 'e'] ++ rest, fun level => ?_, htrail.trimmed hhead,
    hone.append htrail.oneLine, by rw [hkind]; rfl, by rw [hkind]; rfl,
    fun s m level hlen hfits => ?_, fun s m level h => ?_⟩
  · rw [lines, hlines, Node.writeHead_else]
  · obtain ⟨c, hc, helse⟩ := hfits rfl
    obtain ⟨b, hb, hbare, hopens⟩ :=
      hread (m.right 5) none (m.span (['@', 'e', 'l', 's', 'e'] ++ rest).length)
    obtain ⟨btest, bbody, bspan⟩ := b
    obtain rfl : btest = none := congrArg Branch.test hbare
    refine ⟨.branch ⟨none, bbody, bspan⟩, by rw [bare, bare, hbare, Node.bareBranch], ?_⟩
    have hhead : BranchHead.readElse m (['@', 'e', 'l', 's', 'e'] ++ rest) =
        ⟨none, BranchHead.inlineBody (m.right 5) rest,
          m.span (['@', 'e', 'l', 's', 'e'] ++ rest).length⟩ := rfl
    rw [hkind, Outliner.readKind, Outliner.readElse, hc]
    simp only [helse, hhead, Outliner.addBranch, hb, Outliner.pushBranch_eq, hopens]
    simp [Outliner.enter, Outliner.note, Outline.addBranch, into, chains, opens, hlen]
  · rw [hkind]
    exact drops_of_not_fits rfl h

/-- Every entry that stands is written on a line that gives it back. -/
theorem exists_written {e : Entry} {opens : Bool} (h : e.Stands Pipe.Readable opens) (o : Layout) :
    ∃ line, Written o e line := by
  have hbody : ∀ {b : Branch Node} {opens : Bool}, b.Stands Pipe.Readable opens →
      b.body = [] ∨ Node.Inlined Pipe.Readable b.body := by
    intro b opens hb
    exact hb.body.imp_right And.right
  cases h with
  | element hs => exact ⟨_, written_element hs o⟩
  | led hn hc hps => exact ⟨_, written_led hn hc hps o⟩
  | text hps => exact ⟨_, written_text hps o⟩
  | expression hv => exact ⟨_, written_expression hv o⟩
  | loop hl => exact ⟨_, written_loop hl o⟩
  | @conditional b opens span hb ht =>
    obtain ⟨test, body, bspan⟩ := b
    obtain ⟨t, rfl⟩ := Option.ne_none_iff_exists'.mp ht
    exact written_conditional (hb.test t rfl) (hbody hb) o
  | @branch b opens hb =>
    obtain ⟨test, body, bspan⟩ := b
    cases test with
    | none => exact written_else (hbody hb) o
    | some t => exact written_elseIf (hb.test t rfl) (hbody hb) o

end Entry

end Offside
