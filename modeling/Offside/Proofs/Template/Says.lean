import Offside.Proofs.Template.Written

/-! What a line says, wherever it stands. A line that is read without a report gives an entry, and
but for the places in it the same entry is read at any other mark, level and state that it fits. -/
namespace Offside

open Text

section

variable {m : Mark} {s line t : Text} {n : Node} {placement : Placement}

/-- A pipe text without a report is read the same at any place. -/
theorem Pipe.read_again (h : (Pipe.read m placement ('|' :: t)).2 = []) (m' : Mark) :
    (Pipe.read m' placement ('|' :: t)).2 = [] ∧
      (Pipe.read m' placement ('|' :: t)).1.bare = (Pipe.read m placement ('|' :: t)).1.bare := by
  obtain ⟨k, rest, -, hrest, hread⟩ := read_cases m placement t
  obtain ⟨k', rest', -, hrest', hread'⟩ := read_cases m' placement t
  obtain rfl : rest' = rest := by
    rcases hrest with rfl | ⟨rfl, hne⟩ <;> rcases hrest' with he | ⟨he, hne'⟩
    · exact (List.cons.inj he).2.symm
    · simp [← he] at hne'
    · simp [he] at hne
    · exact he.symm
  rw [hread] at h
  obtain ⟨hnil, hparts⟩ := readParts_of_spells (spells_of_readParts h) k'
  rw [hread, hread']
  exact ⟨hnil, by simp [Node.bare, hparts]⟩

namespace Node

/-- An element line without a report is read the same at any place. -/
theorem readElement_again (h : readElement m line = .ok (n, [])) :
    ∃ name classes children span, n = .element name classes children span ∧
      ∀ m', ∃ children' span', bareList children' = bareList children ∧
        readElement m' line = .ok (.element name classes children' span', []) := by
  obtain ⟨name, classes, rest, pipe, span, rfl, hn, hsp, -, -, hread⟩ := spells_of_readElement h
  cases pipe with
  | none =>
    refine ⟨name, classes, [], some span, (Prod.mk.inj hread).1, fun m' => ?_⟩
    obtain ⟨pipe', span', hpipe, -, hread'⟩ := readElement_of_spells hn hsp m'
    obtain rfl := Option.map_eq_none_iff.mp hpipe
    exact ⟨[], some span', rfl, hread'⟩
  | some pt =>
    obtain ⟨p, t⟩ := pt
    obtain ⟨-, u, rfl, -⟩ := Selector.pipe_of_spells hsp
    obtain ⟨rfl, hnil⟩ := Prod.mk.inj hread
    refine ⟨name, classes, _, some span, rfl, fun m' => ?_⟩
    obtain ⟨pipe', span', hpipe, -, hread'⟩ := readElement_of_spells hn hsp m'
    obtain ⟨⟨p', t'⟩, rfl, rfl⟩ := Option.map_eq_some_iff.mp hpipe
    obtain ⟨hnil', hbare⟩ := Pipe.read_again hnil.symm p'
    refine ⟨[(Pipe.read p' .inline ('|' :: u)).1], some span', ?_, ?_⟩
    · simp [bareList, hbare]
    · simp only [hread', hnil']

/-- An expression line without a report is read the same at any place. -/
theorem readExpression_again (h : readExpression m line = .ok n) :
    ∃ v span, n = .expression v span ∧
      ∀ m', ∃ span', readExpression m' line = .ok (.expression v span') := by
  simp only [readExpression.eq_def] at h ⊢
  split at h
  · cases h
  · next inner after hcut =>
    split at h
    · cases h
    · next hafter =>
      simp only [if_neg hafter]
      split at h
      · cases h
      · exact ⟨trim inner, _, (Except.ok.inj h).symm, fun m' => ⟨_, rfl⟩⟩

/-- A body without a report is a node. -/
theorem readInline_again (h : (readInline m line).2 = []) :
    ∃ n, (readInline m line).1 = some n ∧
      ∀ m', ∃ n', n'.bare = n.bare ∧ readInline m' line = (some n', []) := by
  rw [readInline.eq_def] at h ⊢
  simp only [readInline.eq_def]
  split at h
  · refine ⟨_, rfl, fun m' => ?_⟩
    obtain ⟨hnil, hbare⟩ := Pipe.read_again h m'
    exact ⟨_, hbare, by rw [hnil]⟩
  · cases hread : readExpression m _ with
    | error d => simp [hread, reading, Except.map] at h
    | ok n =>
      obtain ⟨v, span, rfl, hagain⟩ := readExpression_again hread
      refine ⟨.expression v span, by simp [reading, Except.map], fun m' => ?_⟩
      obtain ⟨span', hread'⟩ := hagain m'
      exact ⟨.expression v span', rfl, by simp [hread', reading, Except.map]⟩
  · cases h
  · cases hread : readElement m line with
    | error d => simp [hread, reading] at h
    | ok r =>
      obtain ⟨n, ds⟩ := r
      obtain rfl : ds = [] := by simpa [hread, reading] using h
      obtain ⟨name, classes, children, span, rfl, hagain⟩ := readElement_again hread
      refine ⟨.element name classes children span, by simp [reading], fun m' => ?_⟩
      obtain ⟨children', span', hchildren, hread'⟩ := hagain m'
      exact ⟨.element name classes children' span', by simp [bare, hchildren],
        by simp [hread', reading]⟩

end Node

end

namespace BranchHead

variable {k : TestKeyword} {m : Mark} {line : Text} {head : BranchHead}

theorem inlineBody_again (m m' : Mark) (rest : Text) :
    (inlineBody m' rest).map Prod.snd = (inlineBody m rest).map Prod.snd := by
  rw [inlineBody, inlineBody]
  split <;> rfl

theorem readTested_again (h : readTested k m line = .ok head) :
    head.test ≠ none ∧ ∀ m', ∃ head', readTested k m' line = .ok head' ∧ head'.test = head.test ∧
      head'.inline.map Prod.snd = head.inline.map Prod.snd := by
  simp only [readTested] at h ⊢
  split at h
  · cases h
  · split at h
    · cases h
    · obtain rfl := Except.ok.inj h
      exact ⟨by simp, fun m' => ⟨_, rfl, rfl, inlineBody_again ..⟩⟩

end BranchHead

namespace Outliner

variable {head head' : BranchHead}

theorem test_branchOf (head : BranchHead) : (branchOf head).1.test = head.test := by
  rw [branchOf]
  split <;> rfl

/-- The branch of a head without a report is open if nothing else stands on its line. -/
theorem branchOf_again (h : (branchOf head).2 = []) (htest : head'.test = head.test)
    (hinline : head'.inline.map Prod.snd = head.inline.map Prod.snd) :
    ∃ b, branchOf head' = (b, []) ∧ Node.bareBranch b = Node.bareBranch (branchOf head).1 ∧
      head'.inline.isNone = (branchOf head).1.body.isEmpty := by
  obtain ⟨test, inline, span⟩ := head
  obtain ⟨test', inline', span'⟩ := head'
  obtain rfl : test' = test := htest
  cases inline with
  | none =>
    obtain rfl : inline' = none := by simpa using hinline
    exact ⟨_, rfl, rfl, rfl⟩
  | some p =>
    obtain ⟨m, body⟩ := p
    obtain ⟨⟨m', body'⟩, rfl, rfl⟩ := Option.map_eq_some_iff.mp hinline
    obtain ⟨n, hn, hagain⟩ := Node.readInline_again h
    obtain ⟨n', hn', hread⟩ := hagain m'
    refine ⟨⟨test', [n'], some span'⟩, by simp [branchOf, hread], ?_⟩
    simp [branchOf, hn, hn', Node.bareBranch, Node.bareList]

end Outliner

namespace LineKind

variable {kind : LineKind} {line : Text} {n : Node} {b : Branch Node} {s : Outliner} {m : Mark}
  {level : Nat}

/-- The line says the entry wherever it fits. -/
structure Says (kind : LineKind) (line : Text) (e : Entry) : Prop where
  continues : e.isBranch = kind.continuesChain
  read : ∀ (s : Outliner) (m : Mark) (level : Nat), s.frames.length = level → e.Fits s level →
    ∃ e', e'.bare = e.bare ∧ s.readKind m level line kind = s.enter level e' e.opens

theorem says_node (hchain : kind.continuesChain = false)
    (hread : ∀ (s : Outliner) (m : Mark), ∃ n', n'.bare = n.bare ∧
      s.readKind m s.frames.length line kind =
        s.enter s.frames.length (.node n') (Entry.node n).opens) :
    kind.Says line (.node n) where
  continues := hchain.symm
  read s m level hlen _ := by
    obtain ⟨n', hn', hread⟩ := hread s m
    subst hlen
    exact ⟨.node n', by rw [Entry.bare, Entry.bare, hn'], hread⟩

/-- A pipe line without a report says its text. -/
theorem says_pipe {rest : Text} (h : (Pipe.read m .block ('|' :: rest)).2 = []) :
    pipe.Says ('|' :: rest) (.node (Pipe.read m .block ('|' :: rest)).1) := by
  have hopens : (Entry.node (Pipe.read m .block ('|' :: rest)).1).opens = false := by
    obtain ⟨k, text, -, -, hread⟩ := Pipe.read_cases m .block rest
    rw [hread]
    rfl
  refine says_node rfl fun s m' => ?_
  obtain ⟨hnil, hbare⟩ := Pipe.read_again h m'
  obtain ⟨k, text, -, -, hread⟩ := Pipe.read_cases m' .block rest
  rw [hread] at hnil hbare
  have hnote : (Pipe.readParts k none text).2 = [] := hnil
  refine ⟨_, hbare, ?_⟩
  simp [Outliner.readKind, hread, hnote, hopens, Outliner.enter, Outliner.add, Outline.add,
    Entry.into, Entry.chains]

theorem says_expression (h : Node.readExpression m line = .ok n) :
    expression.Says line (.node n) := by
  obtain ⟨v, span, rfl, hagain⟩ := Node.readExpression_again h
  refine says_node rfl fun s m' => ?_
  obtain ⟨span', hread⟩ := hagain m'
  refine ⟨.expression v span', rfl, ?_⟩
  simp [Outliner.readKind, hread, Outliner.enter, Outliner.add, Outline.add, Entry.into,
    Entry.chains, Entry.opens]

theorem says_element (h : Node.readElement m line = .ok (n, [])) :
    element.Says line (.node n) := by
  obtain ⟨name, classes, children, span, rfl, hagain⟩ := Node.readElement_again h
  refine says_node rfl fun s m' => ?_
  obtain ⟨children', span', hchildren, hread⟩ := hagain m'
  refine ⟨.element name classes children' span', by simp [Node.bare, hchildren], ?_⟩
  simp [Outliner.readKind, hread, Outliner.enter, Outliner.push, Outliner.add, Outline.add,
    Entry.into, Entry.chains, Entry.opens]

theorem says_loop {v i : Text} (h : Loop.read? line = some (v, i)) :
    forLine.Says line (.node (.loop v i [] none)) := by
  refine says_node rfl fun s m' => ?_
  refine ⟨.loop v i [] (some (m'.span line.length)), rfl, ?_⟩
  simp [Outliner.readKind, Outliner.readLoop, h, Outliner.enter, Outliner.push, Outliner.add,
    Outline.add, Entry.into, Entry.chains, Entry.opens]

theorem says_if {head : BranchHead} (h : BranchHead.readTested .ifLine m line = .ok head)
    (hnil : (Outliner.branchOf head).2 = []) :
    ifLine.Says line (.node (.conditional [(Outliner.branchOf head).1] none)) := by
  refine says_node rfl fun s m' => ?_
  obtain ⟨head', hread, htest, hinline⟩ := (BranchHead.readTested_again h).2 m'
  obtain ⟨b, hb, hbare, hopens⟩ := Outliner.branchOf_again hnil htest hinline
  refine ⟨.conditional [b] (some head'.span), ?_, ?_⟩
  · simp [Node.bare, Node.bareBranches, hbare]
  · simp [Outliner.readKind, Outliner.readIf, hread, hb, Outliner.pushBranch_eq, hopens,
      Outliner.enter, Outliner.add, Outline.add, Entry.into, Entry.chains, Entry.opens]

/-- An `@elseIf` line without a report says its branch. -/
theorem says_elseIf {head : BranchHead} (h : BranchHead.readTested .elseIf m line = .ok head)
    (hnil : (Outliner.branchOf head).2 = []) :
    elseIf.Says line (.branch (Outliner.branchOf head).1) where
  continues := rfl
  read s m' level hlen hfits := by
    obtain ⟨c, hc, helse⟩ := hfits rfl
    obtain ⟨hsome, hagain⟩ := BranchHead.readTested_again h
    obtain ⟨head', hread, htest, hinline⟩ := hagain m'
    obtain ⟨b, hb, hbare, hopens⟩ := Outliner.branchOf_again hnil htest hinline
    have hbtest : b.test ≠ none := by
      have hb' := Outliner.test_branchOf head'
      rw [hb, htest] at hb'
      rwa [hb']
    refine ⟨.branch b, congrArg Entry.branch hbare, ?_⟩
    rw [Outliner.readKind, Outliner.readElseIf, hc]
    simp only [helse, hread]
    rw [if_neg (by simp), Outliner.addBranch_eq hb hlen hbtest, hopens]
    simp [Entry.opens]

/-- An `@else` line without a report says its branch. -/
theorem says_else (hnil : (Outliner.branchOf (BranchHead.readElse m line)).2 = []) :
    elseLine.Says line (.branch (Outliner.branchOf (BranchHead.readElse m line)).1) where
  continues := rfl
  read s m' level hlen hfits := by
    obtain ⟨c, hc, helse⟩ := hfits rfl
    have htest : (BranchHead.readElse m' line).test = (BranchHead.readElse m line).test := rfl
    have hinline : (BranchHead.readElse m' line).inline.map Prod.snd =
        (BranchHead.readElse m line).inline.map Prod.snd := BranchHead.inlineBody_again ..
    obtain ⟨⟨test, body, span⟩, hb, hbare, hopens⟩ := Outliner.branchOf_again hnil htest hinline
    obtain rfl : test = none := by
      have hb' := Outliner.test_branchOf (BranchHead.readElse m' line)
      rwa [hb] at hb'
    refine ⟨.branch ⟨none, body, span⟩, congrArg Entry.branch hbare, ?_⟩
    rw [Outliner.readKind, Outliner.readElse, hc]
    simp only [helse, Outliner.addBranch, hb, Outliner.pushBranch_eq, hopens]
    simp [Outliner.enter, Outline.addBranch, Entry.into, Entry.chains, Entry.opens, hlen]

/-- A line outside the header that is read without a report says an entry that fits. -/
theorem exists_saying (hk : kind.Heads line) (hheader : kind.isHeader = false)
    (h : (s.readKind m level line kind).diagnostics = s.diagnostics) :
    ∃ e, kind.Says line e ∧ e.Fits s level := by
  cases kind with
  | id => cases hheader
  | props => cases hheader
  | classes => cases hheader
  | ifLine =>
    rw [Outliner.readKind, Outliner.readIf] at h
    split at h
    · simp [Outliner.note] at h
    · next head hread =>
      refine ⟨_, says_if hread ?_, Entry.fits_node _ s level⟩
      simpa [Outliner.pushBranch_eq, Outliner.note, Outliner.add] using h
  | elseIf =>
    rw [Outliner.readKind, Outliner.readElseIf] at h
    split at h
    · simp [Outliner.report, Outliner.note] at h
    · next c hc =>
      split at h
      · simp [Outliner.report, Outliner.note] at h
      · next helse =>
        split at h
        · simp [Outliner.note] at h
        · next head hread =>
          refine ⟨_, says_elseIf hread ?_, fun _ => ⟨c, hc, by simpa using helse⟩⟩
          simpa [Outliner.addBranch, Outliner.pushBranch_eq, Outliner.note] using h
  | elseLine =>
    rw [Outliner.readKind, Outliner.readElse] at h
    split at h
    · simp [Outliner.report, Outliner.note] at h
    · next c hc =>
      split at h
      · simp [Outliner.report, Outliner.note] at h
      · next helse =>
        refine ⟨_, says_else (m := m) ?_, fun _ => ⟨c, hc, by simpa using helse⟩⟩
        simpa [Outliner.addBranch, Outliner.pushBranch_eq, Outliner.note] using h
  | forLine =>
    rw [Outliner.readKind, Outliner.readLoop] at h
    split at h
    · simp [Outliner.report, Outliner.note] at h
    · next v i hread => exact ⟨_, says_loop hread, Entry.fits_node _ s level⟩
  | pipe =>
    obtain ⟨rest, rfl⟩ := hk
    refine ⟨_, says_pipe (m := m) ?_, Entry.fits_node _ s level⟩
    simpa [Outliner.readKind, Outliner.note, Outliner.add] using h
  | expression =>
    rw [Outliner.readKind] at h
    split at h
    · simp [Outliner.note] at h
    · next n hread => exact ⟨_, says_expression hread, Entry.fits_node _ s level⟩
  | element =>
    rw [Outliner.readKind] at h
    split at h
    · simp [Outliner.note] at h
    · next n ds hread =>
      obtain rfl : ds = [] := by simpa [Outliner.note, Outliner.push, Outliner.add] using h
      exact ⟨_, says_element hread, Entry.fits_node _ s level⟩

end LineKind

/-- What is written of an entry says the entry. -/
theorem Entry.Written.saying {o : Layout} {e : Entry} {line : Text} (h : e.Written o line) :
    (LineKind.ofText line).Says line e :=
  ⟨h.continues.symm, h.read⟩

end Offside
