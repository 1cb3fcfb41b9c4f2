import Offside.Proofs.Template.Entry
import Offside.Proofs.Template.Header
import Offside.Proofs.Template.Margin

/-! What one line does: it is left out and reported, or it adds to the header, or it adds an entry
at its level. There is one lemma for each kind of line. -/
namespace Offside

open Text

/-- The levels from `k - 1` down to zero. -/
def down (k : Nat) : List Nat := (List.range k).reverse

@[simp] theorem down_zero : down 0 = [] := rfl

theorem down_succ (k : Nat) : down (k + 1) = k :: down k := by
  simp [down, List.range_succ]

@[simp] theorem length_down (k : Nat) : (down k).length = k := by
  simp [down]

/-- Lines at a level and deeper are closed. -/
theorem dropWhile_down (level k : Nat) :
    (down k).dropWhile (level ≤ ·) = down (min level k) := by
  induction k with
  | zero => simp
  | succ k ih =>
    rw [down_succ]
    by_cases h : level ≤ k
    · rw [List.dropWhile_cons_of_pos (by simpa using h), ih]
      congr 1
      omega
    · rw [List.dropWhile_cons_of_neg (by simpa using h), ← down_succ]
      congr 1
      omega

namespace LineKind

/-- Whether the line belongs to the header. -/
def isHeader : LineKind → Bool
  | id | props | classes => true
  | _ => false

end LineKind

namespace Entry

/-- The conditionals that can take another branch, behind an entry at a level. -/
def chains (level : Nat) : Entry → List Chain → List Chain
  | node (.conditional _ _), cs => ⟨level, false⟩ :: cs
  | branch ⟨none, _, _⟩, cs =>
    cs.map fun c => if c.level == level then { c with hasElse := true } else c
  | _, cs => cs

/-- Whether the entry is a branch without a test, which ends its conditional. -/
def isLast : Entry → Bool
  | node _ => false
  | branch b => b.test.isNone

/-- Where a chain behind an entry comes from: it was there before, with or without its `@else`, or a
conditional starts it. -/
theorem mem_chains {e : Entry} {level : Nat} {c : Chain} {cs : List Chain}
    (h : c ∈ e.chains level cs) :
    (∃ d ∈ cs, c.level = d.level ∧
        (c.hasElse = true ↔ d.hasElse = true ∨ d.level = level ∧ e.isLast = true)) ∨
      c = ⟨level, false⟩ ∧ ∃ branches span, e = .node (.conditional branches span) := by
  cases e with
  | node n =>
    cases n with
    | conditional branches span =>
      rcases List.mem_cons.mp h with rfl | h
      · exact Or.inr ⟨rfl, branches, span, rfl⟩
      · exact Or.inl ⟨c, h, rfl, by simp [isLast]⟩
    | _ => exact Or.inl ⟨c, h, rfl, by simp [isLast]⟩
  | branch b =>
    obtain ⟨test, body, span⟩ := b
    cases test with
    | none =>
      obtain ⟨d, hd, rfl⟩ := List.mem_map.mp h
      refine Or.inl ⟨d, hd, ?_, ?_⟩
      · split <;> rfl
      · by_cases hlevel : d.level = level <;> simp [hlevel, isLast]
    | some test => exact Or.inl ⟨c, h, rfl, by simp [isLast]⟩

end Entry

namespace Outliner

variable {P : List Part → Prop} {s t : Outliner} {m : Mark} {line : Text} {level base : Nat}

/-- The state behind a line that adds an entry at a level. -/
def enter (s : Outliner) (level : Nat) (e : Entry) (opens : Bool) : Outliner :=
  { s with
    template.children := Outline.modifyAt e.into level s.template.children
    frames := if opens then level :: s.frames else s.frames
    chains := e.chains level s.chains }

def declareId (s : Outliner) (v : Text) (span : Span) : Outliner :=
  { s with
    template.rawId := some v
    template.id := some (TemplateId.logical v)
    template.idSpan := some span }

/-- The state behind the line that opens the props block. -/
def startProps (s : Outliner) (span : Span) : Outliner :=
  { s with template.props := some ⟨[], some span⟩, propsLevel := some 0 }

/-- The state behind the line that opens the classes block. -/
def startClasses (s : Outliner) (span : Span) : Outliner :=
  { s with template.aliases := some ⟨[], some span⟩, classesLevel := some 0 }

def addField (s : Outliner) (f : PropsField) : Outliner :=
  { s with template.props := s.template.props.map fun p => { p with fields := p.fields ++ [f] } }

def addAlias (s : Outliner) (a : ClassAlias) : Outliner :=
  { s with
    template.aliases := s.template.aliases.map fun b => { b with aliases := b.aliases ++ [a] } }

@[simp] theorem note_nil (s : Outliner) : s.note [] = s := by
  simp [note]

@[simp] theorem note_note (s : Outliner) (ds es : List Diagnostic) :
    (s.note ds).note es = s.note (ds ++ es) := by
  simp [note]

/-- The line is left out, and something is reported on it. -/
def Drops (s t : Outliner) (line : Nat) : Prop :=
  ∃ ds, ds ≠ [] ∧ (∀ d ∈ ds, d.OnLine line) ∧ t = s.note ds

theorem drops_report (s : Outliner) (m : Mark) (p : Problem) (n : Nat) :
    s.Drops (s.report m p n) m.line :=
  ⟨[m.diagnose p n], by simp, by simpa using m.diagnose_onLine p n, rfl⟩

theorem drops_note {d : Diagnostic} (s : Outliner) (hd : d.OnLine m.line) :
    s.Drops (s.note [d]) m.line :=
  ⟨[d], by simp, by simpa using hd, rfl⟩

/-! ## Lines of the header -/

/-- An id line is dropped, or declares the id. -/
theorem readId_cases (s : Outliner) (m : Mark) (level : Nat) (rest : Text) :
    s.Drops (s.readId m level (['#', 'i', 'd'] ++ rest)) m.line ∨
      level = 0 ∧ s.template.rawId = none ∧ ∃ v, ∃ span : Span, TemplateId.isValid v = true ∧
        ink (['#', 'i', 'd'] ++ rest) = ['#', 'i', 'd'] ++ v ∧ span.start.line = m.line ∧
        s.readId m level (['#', 'i', 'd'] ++ rest) = s.declareId v span := by
  rw [readId]
  split
  · exact Or.inl (s.drops_report ..)
  split
  · exact Or.inl (s.drops_report ..)
  split
  · exact Or.inl (s.drops_report ..)
  · next hlevel hraw =>
    split
    · next d h => exact Or.inl (s.drops_note (TemplateId.rejects_of_read h).onLine)
    · next at_ v h =>
      obtain ⟨hv, hline, hink⟩ := TemplateId.read_ok h
      have hink' : ink rest = v := hink
      refine Or.inr ⟨by simpa using hlevel, by simpa using hraw, v, at_.span v.length, hv, ?_, ?_,
        rfl⟩
      · rw [ink_append, hink']
        rfl
      · simp [hline]

/-- The head of a props block is dropped, or opens the block. -/
theorem openProps_cases (s : Outliner) (m : Mark) (level : Nat) (line : Text) :
    s.Drops (s.openProps m level line) m.line ∨
      level = 0 ∧ s.template.children = [] ∧ s.template.props = none ∧ ∃ span : Span,
        span.start.line = m.line ∧ s.openProps m level line = s.startProps span := by
  rw [openProps]
  split
  · exact Or.inl (s.drops_report ..)
  split
  · exact Or.inl (s.drops_report ..)
  · next hlevel hlate =>
    obtain rfl : level = 0 := by simpa using hlevel
    simp only [Bool.or_eq_true, not_or] at hlate
    exact Or.inr ⟨rfl, by simpa using hlate.1, by simpa using hlate.2, m.span line.length, rfl, rfl⟩

/-- The head of a classes block is dropped, or opens the block. -/
theorem openClasses_cases (s : Outliner) (m : Mark) (level : Nat) (line : Text) :
    s.Drops (s.openClasses m level line) m.line ∨
      level = 0 ∧ s.template.children = [] ∧ s.template.aliases = none ∧ ∃ span : Span,
        span.start.line = m.line ∧ s.openClasses m level line = s.startClasses span := by
  rw [openClasses]
  split
  · exact Or.inl (s.drops_report ..)
  split
  · exact Or.inl (s.drops_report ..)
  · next hlevel hlate =>
    obtain rfl : level = 0 := by simpa using hlevel
    simp only [Bool.or_eq_true, not_or] at hlate
    exact Or.inr ⟨rfl, by simpa using hlate.1, by simpa using hlate.2, m.span line.length, rfl, rfl⟩

theorem readField_cases (s : Outliner) (m : Mark) (base level : Nat) (line : Text) :
    s.Drops (s.readField m base level line) m.line ∨
      level = base + 1 ∧ ∃ f, PropsField.read m line = .ok f ∧
        s.readField m base level line = s.addField f := by
  rw [readField]
  split
  · exact Or.inl (s.drops_report ..)
  · next hlevel =>
    split
    · next d h => exact Or.inl (s.drops_note (PropsField.rejects_of_read h).onLine)
    · next f h => exact Or.inr ⟨by simpa using hlevel, f, h, rfl⟩

theorem readAlias_cases (s : Outliner) (m : Mark) (base level : Nat) (line : Text) :
    s.Drops (s.readAlias m base level line) m.line ∨
      level = base + 1 ∧ ∃ a, ClassAlias.read m line = .ok a ∧
        s.readAlias m base level line = s.addAlias a := by
  rw [readAlias]
  split
  · exact Or.inl (s.drops_report ..)
  · next hlevel =>
    split
    · next d h => exact Or.inl (s.drops_note (ClassAlias.rejects_of_read h).onLine)
    · next a h => exact Or.inr ⟨by simpa using hlevel, a, h, rfl⟩

/-! ## Lines outside the header -/

theorem yields_true (ds : List Diagnostic) : Pipe.Yields (fun _ => True) ds :=
  fun _ _ _ _ _ => trivial

/-- The line adds an entry at a level. -/
def Adds (P : List Part → Prop) (s t : Outliner) (m : Mark) (line : Text) (level : Nat)
    (continues : Bool) : Prop :=
  ∃ e opens ds, Entry.Reading P m line e opens ds ∧ e.isBranch = continues ∧
    (continues = true → ∃ c ∈ s.chains, c.level = level ∧ c.hasElse = false) ∧
    t = (s.enter level e opens).note ds

theorem pushBranch_eq (s : Outliner) (head : BranchHead) (level : Nat) :
    s.pushBranch head level =
      { s with frames := if head.inline.isNone then level :: s.frames else s.frames } := by
  rw [pushBranch]
  cases head.inline <;> rfl

theorem readIf_of_ok {head : BranchHead} {b : Branch Node} {ds : List Diagnostic}
    (h : BranchHead.readTested .ifLine m line = .ok head) (hb : branchOf head = (b, ds))
    (hlen : s.frames.length = level) : s.readIf m level line =
      (s.enter level (.node (.conditional [b] (some head.span))) head.inline.isNone).note ds := by
  simp [readIf, h, hb, pushBranch_eq, enter, note, add, Outline.add, Entry.into, Entry.chains, hlen]

/-- An `@if` line is dropped, or adds a conditional. -/
theorem readIf_cases {rest : Text} (hlen : s.frames.length = level) (hl : OneLine rest)
    (hP : Pipe.Yields P (s.readIf m level (TestKeyword.ifLine.word ++ rest)).diagnostics) :
    s.Drops (s.readIf m level (TestKeyword.ifLine.word ++ rest)) m.line ∨
      s.Adds P (s.readIf m level (TestKeyword.ifLine.word ++ rest)) m
        (TestKeyword.ifLine.word ++ rest) level false := by
  cases h : BranchHead.readTested .ifLine m (TestKeyword.ifLine.word ++ rest) with
  | error d =>
    rw [readIf, h]
    exact Or.inl (s.drops_note (BranchHead.rejects_of_readTested h).onLine)
  | ok head =>
    obtain ⟨⟨b, ds⟩, hb⟩ : ∃ r, branchOf head = r := ⟨_, rfl⟩
    rw [readIf_of_ok h hb hlen] at hP ⊢
    have hP' : Pipe.Yields P ds := hP.mono fun d hd => by simp [note, hd]
    exact Or.inr ⟨_, _, ds, Node.reading_if h hb hl hP', rfl, by simp, rfl⟩

theorem addBranch_eq {head : BranchHead} {b : Branch Node} {ds : List Diagnostic}
    (hb : branchOf head = (b, ds)) (hlen : s.frames.length = level) (hc : b.test ≠ none) :
    s.addBranch head level = (s.enter level (.branch b) head.inline.isNone).note ds := by
  obtain ⟨test, body, span⟩ := b
  obtain ⟨t, rfl⟩ := Option.ne_none_iff_exists'.mp hc
  simp only [addBranch, hb, pushBranch_eq]
  simp [enter, note, Outline.addBranch, Entry.into, Entry.chains, hlen]

theorem exists_of_chainAt? {c : Chain} (h : s.chainAt? level = some c) :
    c ∈ s.chains ∧ c.level = level := by
  rw [chainAt?] at h
  exact ⟨List.mem_of_find?_eq_some h, by simpa using List.find?_some h⟩

theorem readElseIf_of_ok {c : Chain} {head : BranchHead} {b : Branch Node} {ds : List Diagnostic}
    (hchain : s.chainAt? level = some c) (helse : c.hasElse = false)
    (h : BranchHead.readTested .elseIf m line = .ok head) (hb : branchOf head = (b, ds))
    (hlen : s.frames.length = level) (htest : b.test ≠ none) :
    s.readElseIf m level line = (s.enter level (.branch b) head.inline.isNone).note ds := by
  simp [readElseIf, hchain, helse, h, addBranch_eq hb hlen htest]

/-- An `@elseIf` line is dropped, or adds a branch. -/
theorem readElseIf_cases {rest : Text} (hlen : s.frames.length = level) (hl : OneLine rest)
    (hP : Pipe.Yields P (s.readElseIf m level (TestKeyword.elseIf.word ++ rest)).diagnostics) :
    s.Drops (s.readElseIf m level (TestKeyword.elseIf.word ++ rest)) m.line ∨
      s.Adds P (s.readElseIf m level (TestKeyword.elseIf.word ++ rest)) m
        (TestKeyword.elseIf.word ++ rest) level true := by
  cases hchain : s.chainAt? level with
  | none =>
    simp only [readElseIf, hchain]
    exact Or.inl (s.drops_report ..)
  | some chain =>
    obtain ⟨hmem, hlevel⟩ := exists_of_chainAt? hchain
    cases helse : chain.hasElse with
    | true =>
      simp only [readElseIf, hchain, helse, if_true]
      exact Or.inl (s.drops_report ..)
    | false =>
      cases h : BranchHead.readTested .elseIf m (TestKeyword.elseIf.word ++ rest) with
      | error d =>
        simp only [readElseIf, hchain, helse, h]
        exact Or.inl (s.drops_note (BranchHead.rejects_of_readTested h).onLine)
      | ok head =>
        obtain ⟨⟨b, ds⟩, hb⟩ : ∃ r, branchOf head = r := ⟨_, rfl⟩
        obtain ⟨htest, -⟩ := Node.reading_elseIf h hb hl (yields_true ds)
        rw [readElseIf_of_ok hchain helse h hb hlen htest] at hP ⊢
        have hP' : Pipe.Yields P ds := hP.mono fun d hd => by simp [note, hd]
        obtain ⟨-, hread⟩ := Node.reading_elseIf h hb hl hP'
        exact Or.inr ⟨_, _, ds, hread, rfl, fun _ => ⟨chain, hmem, hlevel, helse⟩, rfl⟩

theorem readElse_of_some {c : Chain} {b : Branch Node} {ds : List Diagnostic}
    (hchain : s.chainAt? level = some c) (helse : c.hasElse = false)
    (hb : branchOf (BranchHead.readElse m line) = (b, ds)) (hlen : s.frames.length = level)
    (htest : b.test = none) : s.readElse m level line =
      (s.enter level (.branch b) (BranchHead.readElse m line).inline.isNone).note ds := by
  obtain ⟨test, body, span⟩ := b
  obtain rfl : test = none := htest
  simp [readElse, hchain, helse, addBranch, hb, pushBranch_eq, enter, note, Outline.addBranch,
    Entry.into, Entry.chains, hlen]

/-- An `@else` line is dropped, or adds the last branch. -/
theorem readElse_cases {rest : Text} (hlen : s.frames.length = level) (hl : OneLine rest)
    (hP : Pipe.Yields P (s.readElse m level (['@', 'e', 'l', 's', 'e'] ++ rest)).diagnostics) :
    s.Drops (s.readElse m level (['@', 'e', 'l', 's', 'e'] ++ rest)) m.line ∨
      s.Adds P (s.readElse m level (['@', 'e', 'l', 's', 'e'] ++ rest)) m
        (['@', 'e', 'l', 's', 'e'] ++ rest) level true := by
  cases hchain : s.chainAt? level with
  | none =>
    simp only [readElse, hchain]
    exact Or.inl (s.drops_report ..)
  | some chain =>
    obtain ⟨hmem, hlevel⟩ := exists_of_chainAt? hchain
    cases helse : chain.hasElse with
    | true =>
      simp only [readElse, hchain, helse, if_true]
      exact Or.inl (s.drops_report ..)
    | false =>
      obtain ⟨⟨b, ds⟩, hb⟩ :
        ∃ r, branchOf (BranchHead.readElse m (['@', 'e', 'l', 's', 'e'] ++ rest)) = r := ⟨_, rfl⟩
      obtain ⟨htest, -⟩ := Node.reading_else hb hl (yields_true ds)
      rw [readElse_of_some hchain helse hb hlen htest] at hP ⊢
      have hP' : Pipe.Yields P ds := hP.mono fun d hd => by simp [note, hd]
      obtain ⟨-, hread⟩ := Node.reading_else hb hl hP'
      exact Or.inr ⟨_, _, ds, hread, rfl, fun _ => ⟨chain, hmem, hlevel, helse⟩, rfl⟩

theorem readLoop_of_some {v i : Text} (h : Loop.read? line = some (v, i))
    (hlen : s.frames.length = level) : s.readLoop m level line =
      s.enter level (.node (.loop v i [] (some (m.span line.length)))) true := by
  simp [readLoop, h, enter, push, add, Outline.add, Entry.into, Entry.chains, hlen]

/-- An `@for` line is dropped, or adds a loop. -/
theorem readLoop_cases {rest : Text} (hlen : s.frames.length = level) (hl : OneLine rest) :
    s.Drops (s.readLoop m level (['@', 'f', 'o', 'r'] ++ rest)) m.line ∨
      s.Adds P (s.readLoop m level (['@', 'f', 'o', 'r'] ++ rest)) m
        (['@', 'f', 'o', 'r'] ++ rest) level false := by
  cases h : Loop.read? (['@', 'f', 'o', 'r'] ++ rest) with
  | none =>
    rw [readLoop, h]
    exact Or.inl (s.drops_report ..)
  | some names =>
    obtain ⟨v, i⟩ := names
    have hread := Node.reading_loop (P := P) h hl
      (m.span (['@', 'f', 'o', 'r'] ++ rest).length) (m.span_start_line _)
    rw [readLoop_of_some h hlen]
    exact Or.inr ⟨_, true, [], hread, rfl, by simp, (note_nil _).symm⟩

theorem add_text {ps : List Part} {placement : Placement} {span : Option Span}
    (hlen : s.frames.length = level) :
    s.add (.text ps placement span) = s.enter level (.node (.text ps placement span)) false := by
  simp [add, enter, Outline.add, Entry.into, Entry.chains, hlen]

theorem add_expression {v : Text} {span : Option Span} (hlen : s.frames.length = level) :
    s.add (.expression v span) = s.enter level (.node (.expression v span)) false := by
  simp [add, enter, Outline.add, Entry.into, Entry.chains, hlen]

theorem push_add_element {name : Text} {classes : List Text} {children : List Node}
    {span : Option Span} (hlen : s.frames.length = level) :
    (s.add (.element name classes children span)).push level =
      s.enter level (.node (.element name classes children span)) true := by
  simp [push, add, enter, Outline.add, Entry.into, Entry.chains, hlen]

/-- What a line outside the header comes to, once the lines that it ends are closed. -/
theorem readKind_cases {kind : LineKind} (hk : kind.Heads line) (hkind : kind.isHeader = false)
    (hlen : s.frames.length = level) (hs : EndsSolid line) (hl : OneLine line)
    (hP : Pipe.Yields P (s.readKind m level line kind).diagnostics) :
    s.Drops (s.readKind m level line kind) m.line ∨
      s.Adds P (s.readKind m level line kind) m line level kind.continuesChain := by
  cases kind with
  | id => cases hkind
  | props => cases hkind
  | classes => cases hkind
  | ifLine =>
    obtain ⟨rest, rfl⟩ := hk
    exact readIf_cases hlen (hl.subset fun c => List.mem_append_right _) hP
  | elseIf =>
    obtain ⟨rest, rfl⟩ := hk
    exact readElseIf_cases hlen (hl.subset fun c => List.mem_append_right _) hP
  | elseLine =>
    obtain ⟨rest, rfl⟩ := hk
    exact readElse_cases hlen (hl.subset fun c => List.mem_append_right _) hP
  | forLine =>
    obtain ⟨rest, rfl⟩ := hk
    exact readLoop_cases hlen (hl.subset fun c => List.mem_append_right _)
  | pipe =>
    obtain ⟨rest, rfl⟩ := hk
    have hl' : OneLine rest := hl.subset fun c => List.mem_cons_of_mem _
    obtain ⟨ps, ds, hr, -⟩ := Pipe.read_pipe m .block hs.tail hl'
    simp only [readKind, hr] at hP ⊢
    have hP' : Pipe.Yields P ds := hP.mono fun d hd => by simp [note, hd]
    have hread := Node.reading_text hr hs.tail hl' hP'
    rw [add_text hlen]
    exact Or.inr ⟨_, _, ds, hread, rfl, by simp [LineKind.continuesChain], rfl⟩
  | expression =>
    obtain ⟨rest, rfl⟩ := hk
    have hl' : OneLine rest :=
      hl.subset fun c hc => List.mem_cons_of_mem _ (List.mem_cons_of_mem _ hc)
    rw [readKind]
    split
    · next d h => exact Or.inl (s.drops_note (Node.readExpression_error h))
    · next n h =>
      have hread := Node.reading_expression (P := P) h hl'
      obtain ⟨v, span, rfl, -⟩ := Node.readExpression_ok h hl'
      rw [add_expression hlen]
      exact Or.inr ⟨_, _, [], hread, rfl, by simp [LineKind.continuesChain], (note_nil _).symm⟩
  | element =>
    obtain ⟨r, hr⟩ : ∃ r, Node.readElement m line = r := ⟨_, rfl⟩
    cases r with
    | error d =>
      simp only [readKind, hr]
      exact Or.inl (s.drops_note (Node.readElement_error hr))
    | ok r =>
      obtain ⟨n, ds⟩ := r
      simp only [readKind, hr] at hP ⊢
      have hP' : Pipe.Yields P ds := hP.mono fun d hd => by simp [note, push, hd]
      have hread := Node.reading_element hk hr hs hl hP'
      refine Or.inr ⟨_, _, ds, hread, rfl, by simp [LineKind.continuesChain], ?_⟩
      cases Node.readElement_ok hr hs hl hP' <;> exact congrArg (note · _) (push_add_element hlen)

end Outliner

end Offside
