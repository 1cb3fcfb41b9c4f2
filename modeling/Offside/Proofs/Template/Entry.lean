import Offside.Proofs.Template.Row
import Offside.Proofs.Template.Standing

/-! What the lines outside the header say. Whatever is read from a line is an entry that stands,
with a row that starts on the line, and without a diagnostic it shows all the ink of the line. -/
namespace Offside

open Text

variable {P : List Part → Prop} {m m' : Mark} {line rest after : Text} {n : Node}
  {ds : List Diagnostic} {head : BranchHead}

namespace Entry

/-- The rows of an entry at a depth. -/
def rows (depth : Nat) : Entry → List Row
  | node n => n.rows depth none
  | branch b => Node.rowsAt depth false b

/-- The entry is what the line says, with everything that is reported about it. -/
structure Reading (P : List Part → Prop) (m : Mark) (line : Text) (e : Entry) (opens : Bool)
    (ds : List Diagnostic) : Prop where
  stands : e.Stands P opens
  onLine : ∀ d ∈ ds, d.OnLine m.line
  startLine : ∀ n, e = .node n → n.startLine? = some (m.line : Int)
  rows : ∀ depth, ∃ r rs, e.rows depth = r :: rs ∧ r.depth = depth ∧ r.hosted = false ∧
    r.line = some (m.line : Int) ∧ ∀ q ∈ rs, q.hosted = true
  ink_eq : ds = [] → ∀ depth, Node.inked (e.rows depth) = ink line

end Entry

namespace Node

/-- An element line is the entry of its element. -/
theorem reading_element (hk : LineKind.element.Heads line) (h : readElement m line = .ok (n, ds))
    (hs : EndsSolid line) (hl : OneLine line) (hP : Pipe.Yields P ds) :
    Entry.Reading P m line (.node n) true ds := by
  cases readElement_ok h hs hl hP with
  | @plain name classes span hn hc hspan hname hink =>
    have hsel : IsSelector name classes := by
      refine ⟨hn, hc, fun hnil => ?_⟩
      rw [← hname hnil]
      exact hk
    refine ⟨Entry.Stands.element hsel, by simp, ?_, fun depth => ?_, fun _ depth => ?_⟩
    · rintro n ⟨⟩
      simp [startLine?, hspan]
    · exact ⟨_, _, rfl, rfl, rfl, by simp [lineOf, hspan], by simp [rowsIn]⟩
    · simp only [Entry.rows, Node.rows, rowsIn, inked_cons, inked_nil, List.append_nil]
      rw [ink_of_solid (solid_selector hn hc), hink]
  | @led name classes ps span span' ds hn hc hspan hps hds hink =>
    refine ⟨Entry.Stands.led hn hc hps, hds, ?_, fun depth => ?_, fun hnil depth => ?_⟩
    · rintro n ⟨⟩
      simp [startLine?, hspan]
    · exact ⟨_, _, rfl, rfl, rfl, by simp [lineOf, hspan], by simp [Node.rows]⟩
    · simp only [Entry.rows, Node.rows, rowsIn_singleton, inked_cons, inked_nil, List.append_nil]
      rw [ink_of_solid (solid_selector hn hc), ink_cons_of_solid rfl, hink hnil]

theorem reading_text (h : Pipe.read m .block ('|' :: rest) = (n, ds)) (hs : EndsSolid rest)
    (hl : OneLine rest) (hP : Pipe.Yields P ds) :
    Entry.Reading P m ('|' :: rest) (.node n) false ds := by
  obtain ⟨ps, ds', hread, hds, hyield, hink⟩ := Pipe.read_pipe m .block hs hl
  obtain ⟨rfl, rfl⟩ := Prod.mk.inj (hread.symm.trans h)
  refine ⟨Entry.Stands.text (hyield P hP), hds, ?_, fun depth => ?_, fun hnil depth => ?_⟩
  · rintro n ⟨⟩
    rfl
  · exact ⟨_, _, rfl, rfl, rfl, rfl, by simp⟩
  · simp only [Entry.rows, Node.rows, inked_cons, inked_nil, List.append_nil]
    rw [ink_cons_of_solid rfl, ink_cons_of_solid rfl, hink hnil]

theorem reading_expression (h : readExpression m ('{' :: '{' :: rest) = .ok n)
    (hl : OneLine rest) : Entry.Reading P m ('{' :: '{' :: rest) (.node n) false [] := by
  obtain ⟨v, span, rfl, hv, hspan, hink⟩ := readExpression_ok h hl
  refine ⟨Entry.Stands.expression hv, by simp, ?_, fun depth => ?_, fun _ depth => ?_⟩
  · rintro n ⟨⟩
    simp [startLine?, hspan]
  · exact ⟨_, _, rfl, rfl, rfl, by simp [lineOf, hspan], by simp⟩
  · simp only [Entry.rows, Node.rows, inked_cons, inked_nil, List.append_nil]
    rw [ink_writeExpression, hink]

/-- A loop line is the entry of its loop. -/
theorem reading_loop {v i : Text} (h : Loop.read? (['@', 'f', 'o', 'r'] ++ rest) = some (v, i))
    (hl : OneLine rest) (span : Span) (hspan : span.start.line = m.line) :
    Entry.Reading P m (['@', 'f', 'o', 'r'] ++ rest) (.node (.loop v i [] (some span))) true
      [] := by
  obtain ⟨hloop, hink⟩ := Loop.read?_eq_some h hl
  refine ⟨Entry.Stands.loop hloop, by simp, ?_, fun depth => ?_, fun _ depth => ?_⟩
  · rintro n ⟨⟩
    simp [startLine?, hspan]
  · exact ⟨_, _, rfl, rfl, rfl, by simp [lineOf, hspan], by simp [rowsIn]⟩
  · simp only [Entry.rows, Node.rows, rowsIn, inked_cons, inked_nil, List.append_nil, ink_append]
    rw [hink, ink_of_solid (Loop.solid_of_isLoop hloop)]
    simp only [List.append_assoc]
    rfl

/-! ## Branches -/

/-- What stands on the line of another node is hosted there. -/
theorem hosted_of_inlined {line : Int} (h : Inlined P [n]) (hn : n.startLine? = some line)
    (depth : Nat) : ∀ q ∈ rowsIn depth (some line) [n], q.hosted = true := by
  rw [rowsIn_singleton]
  cases h with
  | text _ => simp [Node.rows]
  | @expression v span _ =>
    have hspan : lineOf span = some line := hn
    simp [Node.rows, isHosted, hspan]
  | @element name classes span _ _ =>
    have hspan : lineOf span = some line := hn
    simp [Node.rows, rowsIn, isHosted, hspan]
  | @led name classes ps span span' _ _ _ =>
    have hspan : lineOf span = some line := hn
    simp [Node.rows, isHosted, hspan]

/-- What the head of a branch says about its body. -/
structure BranchReading (P : List Part → Prop) (m : Mark) (head : BranchHead) (after : Text)
    (b : Branch Node) (ds : List Diagnostic) : Prop where
  test : b.test = head.test
  span : b.span = some head.span
  stands : b.Stands P head.inline.isNone
  onLine : ∀ d ∈ ds, d.OnLine m.line
  hosted : ∀ depth, ∀ q ∈ rowsIn depth (some (m.line : Int)) b.body, q.hosted = true
  ink_eq : ds = [] → ∀ depth, inked (rowsIn depth (some (m.line : Int)) b.body) = ink after

/-- The head of a branch is the entry of the branch, with the body on its line. -/
theorem branchReading {b : Branch Node} (h : Outliner.branchOf head = (b, ds))
    (hinline : head.inline = BranchHead.inlineBody m' after) (hm : m'.line = m.line)
    (htest : ∀ t ∈ head.test, IsTest t) (hl : OneLine after) (hP : Pipe.Yields P ds) :
    BranchReading P m head after b ds := by
  rw [Outliner.branchOf] at h
  rcases BranchHead.inlineBody_cases m' after with ⟨hblank, hnone⟩ | ⟨htrim, p, hp, hsome⟩
  · rw [hinline, hnone] at h
    obtain ⟨rfl, rfl⟩ := Prod.mk.inj h
    refine ⟨rfl, rfl, ⟨htest, Or.inl rfl⟩, by simp, by simp [rowsIn], fun _ depth => ?_⟩
    rw [ink_eq_nil hblank]
    rfl
  · obtain ⟨⟨node, es⟩, hr⟩ : ∃ r, readInline p (trim after) = r := ⟨_, rfl⟩
    rw [hinline, hsome] at h
    simp only [hr, Prod.mk.injEq] at h
    obtain ⟨rfl, rfl⟩ := h
    have hread := readInline_spec (P := P) (m := p) htrim.ends (hl.subset (subset_trim after))
      (by rw [hr]; exact hP)
    rw [hr] at hread
    have hline : p.line = m.line := hp.trans hm
    have hopens : head.inline.isNone = false := by rw [hinline, hsome]; rfl
    refine ⟨rfl, rfl, ⟨htest, ?_⟩, hline ▸ hread.onLine, fun depth => ?_, fun hnil depth => ?_⟩
    · cases node with
      | none => exact Or.inl rfl
      | some n => exact Or.inr ⟨hopens, (hread.inlined n rfl).1⟩
    · cases node with
      | none => simp [rowsIn]
      | some n =>
        obtain ⟨hinl, hstart⟩ := hread.inlined n rfl
        exact hosted_of_inlined hinl (hline ▸ hstart) depth
    · obtain ⟨t, ht, hink⟩ := hread.ink_eq hnil {}
      rw [← ink_inlineBody? ht, hink, ink_trim]

theorem rows_conditional (depth : Nat) (b : Branch Node) (span : Option Span) :
    (Node.conditional [b] span).rows depth none = rowsAt depth true b := by
  simp [Node.rows, rowsOf]

/-- The row of a branch and those of the body on its line. -/
theorem BranchReading.rows {b : Branch Node} (h : BranchReading P m head after b ds)
    (hspan : head.span.start.line = m.line) (depth : Nat) (isFirst : Bool) :
    ∃ r rs, rowsAt depth isFirst b = r :: rs ∧ r.depth = depth ∧ r.hosted = false ∧
      r.line = some (m.line : Int) ∧ r.written = writeHead isFirst head.test ∧
      (∀ q ∈ rs, q.hosted = true) ∧ (ds = [] → inked rs = ink after) := by
  obtain ⟨test, body, span⟩ := b
  obtain ⟨rfl, rfl, -, -, hhosted, hink⟩ := h
  have hline : lineOf (some head.span) = some (m.line : Int) := by simp [lineOf, hspan]
  refine ⟨_, _, rfl, rfl, rfl, hline, rfl, ?_, ?_⟩
  · rw [hline]
    exact hhosted (depth + 1)
  · rw [hline]
    exact fun hnil => hink hnil (depth + 1)

theorem writeHead_if {t : Text} (ht : t ≠ []) :
    writeHead true (some t) = TestKeyword.ifLine.word ++ [' ', '('] ++ t ++ [')'] := by
  obtain ⟨c, s, rfl⟩ := List.exists_cons_of_ne_nil ht
  rfl

theorem writeHead_elseIf (t : Text) :
    writeHead false (some t) = TestKeyword.elseIf.word ++ [' ', '('] ++ t ++ [')'] := rfl

theorem writeHead_else : writeHead false none = ['@', 'e', 'l', 's', 'e'] := rfl

/-- The head of a tested branch is the entry of the branch. -/
theorem branchReading_tested {k : TestKeyword} {b : Branch Node}
    (h : BranchHead.readTested k m (k.word ++ rest) = .ok head)
    (hb : Outliner.branchOf head = (b, ds)) (hl : OneLine rest) (hP : Pipe.Yields P ds) :
    ∃ t after, IsTest t ∧ head.test = some t ∧ head.span.start.line = m.line ∧
      BranchReading P m head after b ds ∧
      ink (k.word ++ rest) = ink (k.word ++ [' ', '('] ++ t ++ [')']) ++ ink after := by
  obtain ⟨gap, inside, after, hgap, rfl, ht, htest, hspan, m', hm', hinline⟩ :=
    BranchHead.readTested_ok h hl
  have hl' : OneLine after := hl.subset fun c hc => by simp [hc]
  have htest' : ∀ t ∈ head.test, IsTest t := by simpa [htest] using ht
  refine ⟨trim inside, after, ht, htest, hspan, branchReading hb hinline hm' htest' hl' hP, ?_⟩
  have hsplit : gap ++ '(' :: inside ++ ')' :: after =
      gap ++ ['('] ++ inside ++ [')'] ++ after := by
    simp
  have hopen : ink [' ', '('] = ['('] := rfl
  have hopen' : ink ['('] = ['('] := rfl
  rw [hsplit]
  simp only [ink_append, ink_eq_nil hgap, ink_trim, List.nil_append, List.append_assoc, hopen,
    hopen']

/-- An `@if` line is the entry of a conditional with one branch. -/
theorem reading_if {b : Branch Node}
    (h : BranchHead.readTested .ifLine m (TestKeyword.ifLine.word ++ rest) = .ok head)
    (hb : Outliner.branchOf head = (b, ds)) (hl : OneLine rest) (hP : Pipe.Yields P ds) :
    Entry.Reading P m (TestKeyword.ifLine.word ++ rest) (.node (.conditional [b] (some head.span)))
      head.inline.isNone ds := by
  obtain ⟨t, after, ht, htest, hspan, hread, hink⟩ := branchReading_tested h hb hl hP
  have hbt : b.test ≠ none := by simp [hread.test, htest]
  refine ⟨Entry.Stands.conditional hread.stands hbt, hread.onLine, ?_, fun depth => ?_,
    fun hnil depth => ?_⟩
  · rintro n ⟨⟩
    simp [startLine?, hspan]
  · obtain ⟨r, rs, hrows, hdepth, hhosted, hline, -, hrs, -⟩ := hread.rows hspan depth true
    exact ⟨r, rs, by rw [Entry.rows, rows_conditional, hrows], hdepth, hhosted, hline, hrs⟩
  · obtain ⟨r, rs, hrows, -, -, -, hw, -, hrs⟩ := hread.rows hspan depth true
    rw [Entry.rows, rows_conditional, hrows, inked_cons, hw, htest,
      writeHead_if ht.trimmed.ne_nil, hrs hnil, hink]

/-- An `@elseIf` line is the entry of a branch with a test. -/
theorem reading_elseIf {b : Branch Node}
    (h : BranchHead.readTested .elseIf m (TestKeyword.elseIf.word ++ rest) = .ok head)
    (hb : Outliner.branchOf head = (b, ds)) (hl : OneLine rest) (hP : Pipe.Yields P ds) :
    b.test ≠ none ∧
      Entry.Reading P m (TestKeyword.elseIf.word ++ rest) (.branch b) head.inline.isNone ds := by
  obtain ⟨t, after, ht, htest, hspan, hread, hink⟩ := branchReading_tested h hb hl hP
  refine ⟨by simp [hread.test, htest], Entry.Stands.branch hread.stands, hread.onLine, ?_,
    fun depth => ?_, fun hnil depth => ?_⟩
  · rintro n ⟨⟩
  · obtain ⟨r, rs, hrows, hdepth, hhosted, hline, -, hrs, -⟩ := hread.rows hspan depth false
    exact ⟨r, rs, hrows, hdepth, hhosted, hline, hrs⟩
  · obtain ⟨r, rs, hrows, -, -, -, hw, -, hrs⟩ := hread.rows hspan depth false
    rw [Entry.rows, hrows, inked_cons, hw, htest, writeHead_elseIf, hrs hnil, hink]

/-- An `@else` line is the entry of a branch without one. -/
theorem reading_else {b : Branch Node}
    (hb : Outliner.branchOf (BranchHead.readElse m (['@', 'e', 'l', 's', 'e'] ++ rest)) = (b, ds))
    (hl : OneLine rest) (hP : Pipe.Yields P ds) :
    b.test = none ∧ Entry.Reading P m (['@', 'e', 'l', 's', 'e'] ++ rest) (.branch b)
      (BranchHead.readElse m (['@', 'e', 'l', 's', 'e'] ++ rest)).inline.isNone ds := by
  have hinline : (BranchHead.readElse m (['@', 'e', 'l', 's', 'e'] ++ rest)).inline =
      BranchHead.inlineBody (m.right 5) rest := rfl
  have hread := branchReading (m := m) hb hinline rfl (by simp [BranchHead.readElse]) hl hP
  refine ⟨hread.test, Entry.Stands.branch hread.stands, hread.onLine, ?_, fun depth => ?_,
    fun hnil depth => ?_⟩
  · rintro n ⟨⟩
  · obtain ⟨r, rs, hrows, hdepth, hhosted, hline, -, hrs, -⟩ := hread.rows rfl depth false
    exact ⟨r, rs, hrows, hdepth, hhosted, hline, hrs⟩
  · obtain ⟨r, rs, hrows, -, -, -, hw, -, hrs⟩ := hread.rows rfl depth false
    rw [Entry.rows, hrows, inked_cons, hw, hrs hnil, ink_append]
    rfl

end Node

end Offside
