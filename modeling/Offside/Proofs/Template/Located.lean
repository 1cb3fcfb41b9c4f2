import Offside.Proofs.Template.Condition
import Offside.Proofs.Template.Header
import Offside.Proofs.Template.LineKind
import Offside.Proofs.Template.Span

/-! Where the readers of a line find what they read. `Node.Located` says of each node which
characters its span denotes and what stands before them on their line. -/
namespace Offside

open Text

/-- How the head of a branch is written, with its test. -/
inductive BranchHead.Spells : Option Text → Text → Prop
  | tested {k : TestKeyword} {gap inside : Text} : Blank gap → Test.Closes 0 none inside →
      trim inside ≠ [] →
      Spells (some (trim inside)) (k.word ++ gap ++ '(' :: inside ++ [')'])
  | last : Spells none ['@', 'e', 'l', 's', 'e']

/-- What stands before a node on its line: nothing, or the head of its branch. -/
inductive Node.Lead : Text → Prop
  | own : Lead []
  | branch {test : Option Text} {head gap : Text} : BranchHead.Spells test head → Blank gap →
      Lead (head ++ gap)

/-- What stands before a pipe on its line: also the element that the text belongs to. -/
inductive Pipe.Lead : Placement → Text → Prop
  | own : Lead .block []
  | branch {test : Option Text} {head gap : Text} : BranchHead.Spells test head → Blank gap →
      Lead .inline (head ++ gap)
  | element {lead name rest : Text} {classes : List Text} : Node.Lead lead → IsName name →
      Selector.Spells classes none rest → Lead .inline (lead ++ (name ++ rest))

/-- What a pipe leads in: one space behind it belongs to the pipe. -/
def Pipe.led : Text → Text
  | ' ' :: s => s
  | s => s

/-- An expression of a text was written between the braces that its span denotes. -/
def Part.Located (s : Text) : Part → Prop
  | .literal _ => True
  | .expression v span => ∃ sp inner, span = some sp ∧
      sp.Denotes s ('{' :: '{' :: (inner ++ ['}', '}'])) ∧ trim inner = v

/-- The characters that a part was read from. -/
def Part.source (s : Text) : Part → Text
  | .literal v => v
  | .expression _ span => span.elim [] (·.slice s)

/-- The branch was opened by the whole line that its span denotes. -/
def Branch.Headed (s : Text) (b : Branch Node) : Prop :=
  ∃ span head after, b.span = some span ∧ BranchHead.Spells b.test head ∧
    span.Ends s [] (head ++ after)

/-- A node and what is inside it were written where their spans say. What the pipe of a text has
reported is among the diagnostics; if that is nothing, its parts were read from all it leads in. -/
inductive Node.Located (s : Text) (ds : List Diagnostic) : Node → Prop
  | element {lead name rest : Text} {classes : List Text} {pipe : Option Text}
      {children : List Node} {span : Span} : Lead lead → IsName name →
      Selector.Spells classes pipe rest → span.Ends s lead (name ++ rest) →
      (∀ n ∈ children, Located s ds n) → Located s ds (.element name classes children (some span))
  | text {lead t : Text} {ps : List Part} {placement : Placement} {m : Mark} {span : Span}
      {es : List Diagnostic} : Pipe.Lead placement lead → span.Ends s lead ('|' :: t) →
      Pipe.read m placement ('|' :: t) = (.text ps placement (some span), es) →
      (∀ d ∈ es, d ∈ ds) → (∀ p ∈ ps, p.Located s) →
      (es = [] → ps.flatMap (Part.source s) = Pipe.led t) →
      Located s ds (.text ps placement (some span))
  | expression {lead inner : Text} {span : Span} : Lead lead →
      span.Ends s lead ('{' :: '{' :: (inner ++ ['}', '}'])) →
      Located s ds (.expression (trim inner) (some span))
  | conditional {b : Branch Node} {bs : List (Branch Node)} : (∀ c ∈ b :: bs, c.Headed s) →
      (∀ c ∈ b :: bs, ∀ n ∈ c.body, Located s ds n) →
      Located s ds (.conditional (b :: bs) b.span)
  | loop {v i rest : Text} {body : List Node} {span : Span} :
      span.Ends s [] (['@', 'f', 'o', 'r'] ++ rest) →
      Loop.read? (['@', 'f', 'o', 'r'] ++ rest) = some (v, i) →
      (∀ n ∈ body, Located s ds n) → Located s ds (.loop v i body (some span))

variable {src s t u w lead back rest line token : Text} {l : Line} {m o : Mark} {n : Node}
  {e : Diagnostic} {ds es : List Diagnostic} {ps : List Part}

theorem Node.Located.mono (h : n.Located src ds) (hsub : ∀ d ∈ ds, d ∈ es) : n.Located src es := by
  induction h with
  | element hlead hname hsp hspan _ ih => exact .element hlead hname hsp hspan ih
  | text hlead hspan hread hes hps hsource =>
    exact .text hlead hspan hread (fun d hd => hsub d (hes d hd)) hps hsource
  | expression hlead hspan => exact .expression hlead hspan
  | conditional hheads _ ih => exact .conditional hheads ih
  | loop hspan hread _ ih => exact .loop hspan hread ih

theorem BranchHead.Spells.startsSolid {test : Option Text} (h : BranchHead.Spells test t) :
    ∃ u, t = '@' :: u := by
  cases h with
  | @tested k => cases k <;> exact ⟨_, rfl⟩
  | last => exact ⟨_, rfl⟩

theorem Node.Lead.startsSolid (h : Node.Lead lead) (hw : StartsSolid w) :
    StartsSolid (lead ++ w) := by
  cases h with
  | own => exact hw
  | branch hhead _ =>
    obtain ⟨u, rfl⟩ := hhead.startsSolid
    exact startsSolid_cons.mpr rfl

theorem Pipe.Lead.startsSolid {placement : Placement} (h : Pipe.Lead placement lead)
    (hw : StartsSolid w) : StartsSolid (lead ++ w) := by
  cases h with
  | own => exact hw
  | branch hhead hgap => exact (Node.Lead.branch hhead hgap).startsSolid hw
  | @element lead name rest classes hlead hname _ =>
    rw [List.append_assoc, List.append_assoc]
    obtain ⟨c, s, rfl, hc⟩ := hname.starts
    exact hlead.startsSolid ((Node.solid_of_isName hname).startsSolid.append (by simp))

theorem trim_eq_trimStart (h : EndsSolid s) : trim s = trimStart s := by
  obtain ⟨a, -, hs⟩ := exists_trimStart s
  rw [hs] at h
  exact trimEnd_eq_self h.of_append

theorem eq_nil_of_trim_eq_nil (h : EndsSolid s) (ht : trim s = []) : s = [] := by
  obtain ⟨a, ha, hs⟩ := exists_trimStart s
  rw [← trim_eq_trimStart h, ht, List.append_nil] at hs
  subst hs
  cases hlast : s.getLast? with
  | none => exact List.getLast?_eq_none_iff.mp hlast
  | some c =>
    have hc := h c hlast
    rw [ha c (List.mem_of_getLast? hlast)] at hc
    cases hc

/-- Behind a mark the text starts at its first character that is not blank. -/
theorem Line.Reads.trim (h : l.Reads lead m s) (ht : Text.trim s ≠ []) :
    ∃ gap, Blank gap ∧ l.Reads (lead ++ gap) (m.right (margin s)) (Text.trim s) := by
  rw [trim_eq_trimStart h.2.1] at ht ⊢
  refine ⟨s.takeWhile isBlank, fun c hc => List.mem_takeWhile_imp hc, Line.Reads.right ?_ ht⟩
  rwa [trimStart, List.takeWhile_append_dropWhile]

/-! ## The text after a pipe -/

namespace Pipe

theorem located_consChar (c : Char) (h : ∀ p ∈ ps, p.Located src) :
    ∀ p ∈ Part.consChar c ps, p.Located src := by
  intro p hp
  rcases consChar_cases c ps with ⟨v, qs, rfl, he⟩ | he <;> rw [he] at hp <;>
    rcases List.mem_cons.mp hp with rfl | hp
  · trivial
  · exact h p (List.mem_cons_of_mem _ hp)
  · trivial
  · exact h p hp

theorem located_consText (v : Text) (h : ∀ p ∈ ps, p.Located src) :
    ∀ p ∈ Part.consText v ps, p.Located src := by
  induction v with
  | nil => exact h
  | cons c v ih => exact located_consChar c ih

theorem source_consChar (src : Text) (c : Char) (ps : List Part) :
    (Part.consChar c ps).flatMap (Part.source src) = c :: ps.flatMap (Part.source src) := by
  rcases consChar_cases c ps with ⟨v, qs, rfl, he⟩ | he <;> rw [he] <;> rfl

/-- What comes of the characters `w` behind a mark: parts that are located and, if nothing is
reported among the characters, stand for all of them. -/
structure Covers (src : Text) (m : Mark) (w : Text) (ps : List Part) (ds : List Diagnostic) :
    Prop where
  parts : ∀ p ∈ ps, p.Located src
  among : ∀ d ∈ ds, d.Among m w.length
  source : ds = [] → ps.flatMap (Part.source src) = w

theorem Covers.char {c : Char} (h : Covers src (m.right 1) w ps ds) :
    Covers src m (c :: w) (Part.consChar c ps) ds where
  parts := located_consChar c h.parts
  among d hd := (h.among d hd).of_right.mono (by rw [List.length_cons]; omega)
  source hnil := by rw [source_consChar, h.source hnil]

/-- An expression between braces covers them and what stands between them. -/
theorem Covers.expression {inner : Text} (h : Covers src (m.right (inner.length + 4)) w ps ds)
    (hl : l ∈ Line.ofText src)
    (hm : m.Before l ('{' :: '{' :: (inner ++ '}' :: '}' :: w)) back) :
    Covers src m ('{' :: '{' :: (inner ++ '}' :: '}' :: w))
      (.expression (trim inner) (some (m.span (inner.length + 4))) :: ps) ds := by
  have hlength : ('{' :: '{' :: (inner ++ ['}', '}'])).length = inner.length + 4 := by simp
  have hbefore : m.Before l ('{' :: '{' :: (inner ++ ['}', '}'])) (w ++ back) :=
    Mark.Before.left (by simpa using hm)
  constructor
  · intro p hp
    rcases List.mem_cons.mp hp with rfl | hp
    · exact ⟨_, inner, rfl, hlength ▸ hbefore.denotes hl, rfl⟩
    · exact h.parts p hp
  · intro d hd
    exact (h.among d hd).of_right.mono (by simp; omega)
  · intro hnil
    have hslice : (m.span (inner.length + 4)).slice src = '{' :: '{' :: (inner ++ ['}', '}']) :=
      hlength ▸ hbefore.slice_span hl
    rw [List.flatMap_cons, h.source hnil, Part.source, Option.elim_some, hslice]
    simp

/-- What has been read of the expression that is open, with the mark of its braces. -/
def pending (m : Mark) : Option (Mark × Text) → Mark × Text
  | none => (m, [])
  | some (o, inner) => (o, '{' :: '{' :: inner.reverse)

theorem before_closed {inner : Text}
    (ho : (pending m (some (o, inner))).1.Before l
      ((pending m (some (o, inner))).2 ++ '}' :: '}' :: s) back)
    (hm : m = (pending m (some (o, inner))).1.right (pending m (some (o, inner))).2.length) :
    m.right 2 = o.right (inner.length + 4) ∧ (m.right 2).Before l s back := by
  dsimp only [pending] at ho hm
  have hlength : ('{' :: '{' :: (inner.reverse ++ ['}', '}'])).length = inner.length + 4 := by simp
  have hright : m.right 2 = o.right (inner.length + 4) := by
    rw [hm, Mark.right_right, List.length_cons, List.length_cons, List.length_reverse]
  refine ⟨hright, ?_⟩
  rw [hright, ← hlength]
  exact Mark.Before.right (by simpa using ho)

/-- The invariant is that what is pending and what is still to be read stand side by side. -/
theorem covers_readParts (m : Mark) (opened : Option (Mark × Text)) (s : Text)
    (hl : l ∈ Line.ofText src) (ho : (pending m opened).1.Before l ((pending m opened).2 ++ s) back)
    (hm : m = (pending m opened).1.right (pending m opened).2.length) :
    Covers src (pending m opened).1 ((pending m opened).2 ++ s) (readParts m opened s).1
      (readParts m opened s).2 := by
  fun_induction readParts m opened s with
  | case1 m s ps ds hps ih =>
    rw [hps] at ih
    have h := ih (Mark.Before.right (u := ['}', '}']) ho) rfl
    refine ⟨h.parts, fun d hd => ?_, fun hnil => by cases hnil⟩
    rcases List.mem_cons.mp hd with rfl | hd
    · exact Diagnostic.among_diagnose m .strayClose (by simp [pending]) (by simp [pending])
    · exact (h.among d hd).of_right.mono (by simp [pending]; omega)
  | case2 m s ps ds hps o inner length _ ih =>
    rw [hps] at ih
    obtain ⟨hright, hafter⟩ := before_closed ho hm
    have h := ih hafter rfl
    refine ⟨h.parts, fun d hd => ?_, fun hnil => by cases hnil⟩
    rcases List.mem_cons.mp hd with rfl | hd
    · exact Diagnostic.among_diagnose o .emptyInlineExpression (by simp [pending, length])
        (by simp [pending])
    · exact (hright ▸ h.among d hd).of_right.mono (by simp [pending]; omega)
  | case3 m s ps ds hps o inner length htrim ih =>
    rw [hps] at ih
    obtain ⟨hright, hafter⟩ := before_closed ho hm
    have h := (hright ▸ ih hafter rfl : Covers src (o.right (inner.length + 4)) s ps ds)
    rw [← List.length_reverse] at h
    have h' := h.expression hl (by simpa [pending] using ho)
    simpa [pending, length] using h'
  | case4 m s ih =>
    dsimp only [pending] at ho hm ih ⊢
    exact ih ho rfl
  | case5 m s o inner ih =>
    dsimp only [pending] at ho hm ih ⊢
    have h := ih (by simpa using ho) (by simp [hm])
    simpa using h
  | case6 m c s _ _ ps ds hps ih =>
    rw [hps] at ih
    exact (ih (Mark.Before.right (u := [c]) ho) rfl).char
  | case7 m c s _ _ o inner ih =>
    dsimp only [pending] at ho hm ih ⊢
    have h := ih (by simpa using ho) (by simp [hm])
    simpa using h
  | case8 m => exact ⟨by simp, by simp, fun _ => rfl⟩
  | case9 m o inner =>
    refine ⟨located_consText _ (by simp), fun d hd => ?_, fun hnil => by cases hnil⟩
    obtain rfl := List.mem_singleton.mp hd
    exact Diagnostic.among_diagnose o .openExpression (by simp [pending]) (by simp [pending])

/-- What a pipe with its text is read as. -/
theorem covers_read (m : Mark) (placement : Placement) (hl : l ∈ Line.ofText src)
    (hm : m.Before l ('|' :: t) back) :
    ∃ ps es o, Pipe.read m placement ('|' :: t) =
        (.text ps placement (some (m.span ('|' :: t).length)), es) ∧
      Covers src o (led t) ps es ∧ ∀ d : Diagnostic, d.Among o (led t).length →
        d.Among m ('|' :: t).length := by
  have hread : ∀ (k : Nat) (rest : Text), '|' :: t = ('|' :: t).take k ++ rest →
      (('|' :: t).take k).length = k → Covers src (m.right k) rest
        (readParts (m.right k) none rest).1 (readParts (m.right k) none rest).2 := by
    intro k rest ht hk
    rw [ht] at hm
    have hafter := hm.right
    rw [hk] at hafter
    exact covers_readParts (m.right k) none rest hl hafter rfl
  rw [Pipe.read]
  simp only [List.drop_one, List.tail_cons]
  cases t with
  | nil => exact ⟨_, _, _, rfl, hread 1 [] rfl rfl, fun d hd => hd.of_right.mono (by simp [led])⟩
  | cons c t =>
    by_cases hc : c = ' '
    · subst hc
      refine ⟨_, _, _, rfl, hread 2 t rfl rfl, fun d hd => hd.of_right.mono ?_⟩
      simp [led]
      omega
    · have hled : led (c :: t) = c :: t := by
        rw [led]
        rintro s ⟨⟩
        exact hc rfl
      split
      · next he => exact (hc (List.cons.inj he).1).elim
      · rw [hled]
        refine ⟨_, _, _, rfl, hread 1 (c :: t) rfl rfl, fun d hd => hd.of_right.mono ?_⟩
        simp
        omega

/-- A text is located where its pipe stands. -/
theorem located_read {placement : Placement} (hl : l ∈ Line.ofText src)
    (h : l.Reads lead m ('|' :: t)) (hlead : Lead placement lead) :
    (Pipe.read m placement ('|' :: t)).1.Located src (Pipe.read m placement ('|' :: t)).2 ∧
      ∀ d ∈ (Pipe.read m placement ('|' :: t)).2, d.Among m ('|' :: t).length := by
  obtain ⟨back, -, hbefore⟩ := h.exists_before
  obtain ⟨ps, es, o, hread, hcovers, hamong⟩ := covers_read m placement hl hbefore
  have hpipe : StartsSolid ('|' :: t) := startsSolid_cons.mpr rfl
  have hspan := h.ends hl (hlead.startsSolid hpipe) hpipe
  rw [hread]
  exact ⟨.text hlead hspan hread (fun d hd => hd) hcovers.parts hcovers.source,
    fun d hd => hamong d (hcovers.among d hd)⟩

end Pipe

/-! ## Elements -/

namespace Selector

variable {place : Place} {tail : Tail} {classes : List Text} {c : Char}

/-- The classes before a pipe are spelled without it. -/
theorem Spells.before_pipe (h : Spells classes (some t) s) :
    ∃ a, s = a ++ t ∧ Spells classes none a := by
  generalize hp : some t = pipe at h
  induction h with
  | done => cases hp
  | @blank c _ _ _ hc _ ih =>
    obtain ⟨a, rfl, ha⟩ := ih hp
    exact ⟨c :: a, rfl, .blank hc ha⟩
  | pipe =>
    obtain rfl := Option.some.inj hp
    exact ⟨[], rfl, .done⟩
  | @dot u _ _ _ hu _ ih =>
    obtain ⟨a, rfl, ha⟩ := ih hp
    exact ⟨'.' :: (u ++ a), by simp, .dot hu ha⟩

theorem exists_cons_of_right {p : Mark × Text}
    (h : ∃ a, s = a ++ p.2 ∧ p.1 = (m.right 1).right a.length) :
    ∃ a, c :: s = a ++ p.2 ∧ p.1 = m.right a.length := by
  obtain ⟨a, rfl, hp⟩ := h
  exact ⟨c :: a, rfl, by rw [hp, Mark.right_right, List.length_cons, Nat.add_comm]⟩

/-- The pipe is found where it stands. -/
theorem pipe_of_readTail (h : readTail m place s = .ok (token, tail)) :
    ∀ p ∈ tail.pipe, ∃ a, s = a ++ p.2 ∧ p.1 = m.right a.length := by
  fun_induction readTail m place s generalizing token tail with
  | case1 => cases h
  | case2 =>
    obtain ⟨rfl, rfl⟩ := Prod.mk.inj (Except.ok.inj h)
    simp
  | case3 m place c s hc ih =>
    obtain ⟨⟨token', tail'⟩, hr, h⟩ := eq_ok_of_bind h
    obtain ⟨rfl, rfl⟩ := Prod.mk.inj (Except.ok.inj h)
    exact fun p hp => exists_cons_of_right (ih hr p hp)
  | case4 => cases h
  | case5 m place c s _ hp hb ih =>
    obtain ⟨⟨token', tail'⟩, hr, h⟩ := eq_ok_of_bind h
    obtain ⟨rfl, rfl⟩ := Prod.mk.inj (Except.ok.inj h)
    exact fun p hp => exists_cons_of_right (ih hr p hp)
  | case6 m place c s _ hp _ hc =>
    obtain ⟨rfl, rfl⟩ := Prod.mk.inj (Except.ok.inj h)
    rintro p ⟨⟩
    exact ⟨[], rfl, rfl⟩
  | case7 m place c s _ hp _ _ hc ih =>
    obtain ⟨⟨token', tail'⟩, hr, h⟩ := eq_ok_of_bind h
    obtain ⟨rfl, rfl⟩ := Prod.mk.inj (Except.ok.inj h)
    exact fun p hp => exists_cons_of_right (ih hr p hp)
  | case8 => cases h

/-- A dot that nothing follows is the only cause to report something behind the text. -/
theorem about_of_readTail (h : readTail m place s = .error e) :
    e.About m s ∨ place = .start ∧ s = [] ∧ e = m.diagnose .className 1 := by
  fun_induction readTail m place s with
  | case1 m =>
    obtain rfl := Except.error.inj h
    exact Or.inr ⟨by simp_all, rfl, rfl⟩
  | case2 => cases h
  | case3 m place c s hc ih =>
    rcases eq_error_of_bind h with h | ⟨_, _, h⟩
    · rcases ih h with h | ⟨hp, -⟩
      · exact Or.inl (h.right (u := [c]))
      · cases hp
    · cases h
  | case4 m place c s =>
    obtain rfl := Except.error.inj h
    exact Or.inl (Or.inl (Diagnostic.among_diagnose m .className (by simp) (by simp)))
  | case5 m place c s _ hp hb ih =>
    rcases eq_error_of_bind h with h | ⟨_, _, h⟩
    · rcases ih h with h | ⟨hp, -⟩
      · exact Or.inl (h.right (u := [c]))
      · cases hp
    · cases h
  | case6 => cases h
  | case7 m place c s _ hp _ _ hc ih =>
    obtain rfl := beq_iff_eq.mp hc
    rcases eq_error_of_bind h with h | ⟨_, _, h⟩
    · rcases ih h with h | ⟨-, rfl, rfl⟩
      · exact Or.inl (h.right (u := ['.']))
      · exact Or.inl (Or.inr ⟨rfl, rfl⟩)
    · cases h
  | case8 m place c s =>
    obtain rfl := Except.error.inj h
    exact Or.inl (Or.inl (Diagnostic.among_diagnose m .elementTail (by simp) (by simp)))

end Selector

namespace Node

/-- The element that a name makes with what follows it, from its mark on. -/
def ofTail (m : Mark) (name : Text) (length : Nat) (tail : Selector.Tail) :
    Node × List Diagnostic :=
  match tail.pipe with
  | none => (.element name tail.classes [] (some (m.span length)), [])
  | some (p, s) => (.element name tail.classes [(Pipe.read p .inline s).1] (some (m.span length)),
      (Pipe.read p .inline s).2)

/-- An element line is a name, and the rest of it is read from behind the name. -/
theorem readElement_cases (m : Mark) (line : Text) :
    readElement m line = .error (m.diagnose .elementName line.length) ∨
      ∃ name rest, line = name ++ rest ∧ IsName name ∧ readElement m line =
        (Selector.readTail (m.right name.length) .between rest).map fun r =>
          ofTail m name line.length r.2 := by
  rw [readElement.eq_def]
  split
  · next c s =>
    split
    · next hc =>
      right
      obtain ⟨name, hname⟩ : ∃ name, name = (c :: s).takeWhile Selector.isNameChar := ⟨_, rfl⟩
      obtain ⟨rest, hrest⟩ : ∃ rest, rest = (c :: s).dropWhile Selector.isNameChar := ⟨_, rfl⟩
      have hline : c :: s = name ++ rest := by
        rw [hname, hrest, List.takeWhile_append_dropWhile]
      have hdrop : (c :: s).drop name.length = rest := by rw [hline, List.drop_left]
      refine ⟨name, rest, hline, ⟨⟨c, s.takeWhile Selector.isNameChar, ?_, hc⟩, ?_⟩, ?_⟩
      · rw [hname, List.takeWhile_cons_of_pos (Selector.isNameChar_of_isNameStart hc)]
      · rw [hname]
        exact fun d hd => List.mem_takeWhile_imp hd
      · dsimp only
        rw [← hname, hdrop]
        cases Selector.readTail (m.right name.length) .between rest with
        | error e => rfl
        | ok r =>
          obtain ⟨token, classes, pipe⟩ := r
          cases pipe <;> rfl
    · exact Or.inl rfl
  · exact Or.inl rfl

/-- What an element line is read as. -/
theorem located_readElement (hl : l ∈ Line.ofText src) (h : l.Reads lead m line)
    (hlead : Lead lead) (hread : readElement m line = .ok (n, ds)) :
    n.Located src ds ∧ ∀ d ∈ ds, d.Among m line.length := by
  rcases readElement_cases m line with he | ⟨name, rest, rfl, hname, he⟩
  · rw [he] at hread
    cases hread
  rw [he] at hread
  obtain ⟨⟨token, classes, pipe⟩, hr, hread⟩ := eq_ok_of_map hread
  obtain ⟨rest', hrest, htoken, hsp, -⟩ := Selector.spells_of_readTail hr
  obtain rfl : token = [] := htoken
  obtain rfl : rest = rest' := hrest
  have hsolid : StartsSolid (name ++ rest) := by
    obtain ⟨c, s, rfl, hc⟩ := hname.starts
    exact (solid_of_isName hname).startsSolid.append (by simp)
  have hspan := h.ends hl (hlead.startsSolid hsolid) hsolid
  cases pipe with
  | none =>
    obtain ⟨rfl, rfl⟩ := Prod.mk.inj hread
    exact ⟨.element hlead hname hsp hspan (by simp), by simp⟩
  | some pt =>
    obtain ⟨p, t⟩ := pt
    obtain ⟨rfl, rfl⟩ := Prod.mk.inj hread
    obtain ⟨a, rfl, hp⟩ := Selector.pipe_of_readTail hr (p, t) rfl
    obtain ⟨a', ha', hsp'⟩ := hsp.before_pipe
    obtain rfl := List.append_cancel_right ha'
    obtain ⟨-, u, rfl, -⟩ := Selector.pipe_of_spells hsp
    have h' : l.Reads (lead ++ (name ++ a)) (m.right (name ++ a).length) ('|' :: u) :=
      Line.Reads.right (by simpa using h) (by simp)
    rw [List.length_append, ← Mark.right_right, ← hp] at h'
    have hlead' : Pipe.Lead .inline (lead ++ (name ++ a)) := .element hlead hname hsp'
    obtain ⟨htext, hds⟩ := Pipe.located_read hl h' hlead'
    refine ⟨.element hlead hname hsp hspan (by simpa using htext), fun d hd => ?_⟩
    have hd' := hds d hd
    rw [hp, Mark.right_right] at hd'
    exact hd'.of_right.mono (by simp; omega)

/-- What is wrong with an element line is reported about it. -/
theorem about_of_readElement (hne : line ≠ []) (h : readElement m line = .error e) :
    e.About m line := by
  have hpos := List.length_pos_iff.mpr hne
  rcases readElement_cases m line with he | ⟨name, rest, rfl, hname, he⟩
  · rw [he] at h
    obtain rfl := Except.error.inj h
    exact Or.inl (Diagnostic.among_diagnose m .elementName le_rfl hpos)
  · rw [he] at h
    cases hr : Selector.readTail (m.right name.length) .between rest with
    | ok r =>
      rw [hr] at h
      cases h
    | error d =>
      rw [hr] at h
      obtain rfl : d = e := Except.error.inj h
      rcases Selector.about_of_readTail hr with h | ⟨hp, -⟩
      · exact h.right
      · cases hp

/-! ## Expressions and the bodies of branches -/

theorem located_readExpression (hl : l ∈ Line.ofText src)
    (h : l.Reads lead m ('{' :: '{' :: line)) (hlead : Lead lead)
    (hread : readExpression m ('{' :: '{' :: line) = .ok n) : n.Located src ds := by
  obtain ⟨inner, after, rfl, -, hafter, -, rfl⟩ := readExpression_eq_ok hread
  have hnil : after = [] := by
    have hends : EndsSolid after :=
      EndsSolid.of_append (a := '{' :: '{' :: (inner ++ ['}', '}'])) (by simpa using h.2.1)
    exact eq_nil_of_trim_eq_nil hends hafter
  subst hnil
  have hopen : StartsSolid ('{' :: '{' :: (inner ++ ['}', '}'])) := startsSolid_cons.mpr rfl
  exact .expression hlead (h.ends hl (hlead.startsSolid hopen) hopen)

/-- What is wrong with an expression line is reported among its characters. -/
theorem among_of_readExpression (h : readExpression m ('{' :: '{' :: line) = .error e) :
    e.Among m ('{' :: '{' :: line).length := by
  rw [readExpression.eq_def] at h
  split at h
  · obtain rfl := Except.error.inj h
    exact Diagnostic.among_diagnose m .openExpressionLine (by simp) (by simp)
  · next inner after hcut =>
    dsimp only at h
    obtain ⟨hline, -⟩ := cutAtPair_eq_some hcut
    simp only [List.drop_succ_cons, List.drop_zero] at hline
    subst hline
    split at h
    · next hafter =>
      obtain rfl := Except.error.inj h
      have hne : after ≠ [] := by
        rintro rfl
        simp [trim, trimStart, trimEnd] at hafter
      have hpos := List.length_pos_iff.mpr hne
      exact (Diagnostic.among_diagnose _ .afterExpressionLine le_rfl Nat.one_pos).of_right.mono
        (by simp; omega)
    · split at h
      · obtain rfl := Except.error.inj h
        exact Diagnostic.among_diagnose m .emptyExpressionLine (by simp) (by simp)
      · cases h

/-- What stands on the line of a branch. -/
theorem located_readInline {test : Option Text} {head gap : Text} (hl : l ∈ Line.ofText src)
    (h : l.Reads (head ++ gap) m line) (hhead : BranchHead.Spells test head) (hgap : Blank gap) :
    (∀ n ∈ (readInline m line).1, n.Located src (readInline m line).2) ∧
      ∀ d ∈ (readInline m line).2, d.About m line := by
  have hlead : Lead (head ++ gap) := .branch hhead hgap
  have hpos := List.length_pos_iff.mpr h.1
  rw [readInline.eq_def]
  split
  · obtain ⟨htext, hds⟩ := Pipe.located_read hl h (.branch hhead hgap)
    exact ⟨by rintro n ⟨⟩; exact htext, fun d hd => Or.inl (hds d hd)⟩
  · next t =>
    cases hr : readExpression m ('{' :: '{' :: t) with
    | error e =>
      refine ⟨by rintro n ⟨⟩, fun d hd => Or.inl ?_⟩
      obtain rfl := List.mem_singleton.mp hd
      exact among_of_readExpression hr
    | ok n => exact ⟨by rintro n ⟨⟩; exact located_readExpression hl h hlead hr, by rintro d ⟨⟩⟩
  · refine ⟨by rintro n ⟨⟩, fun d hd => Or.inl ?_⟩
    obtain rfl := List.mem_singleton.mp hd
    exact Diagnostic.among_diagnose m .inlineDirective le_rfl hpos
  · cases hr : readElement m line with
    | error e =>
      refine ⟨by rintro n ⟨⟩, fun d hd => ?_⟩
      obtain rfl := List.mem_singleton.mp hd
      exact about_of_readElement h.1 hr
    | ok r =>
      obtain ⟨n, ds⟩ := r
      obtain ⟨hn, hds⟩ := located_readElement hl h hlead hr
      exact ⟨by rintro n ⟨⟩; exact hn, fun d hd => Or.inl (hds d hd)⟩

end Node

/-! ## The heads of branches -/

namespace BranchHead

variable {k : TestKeyword} {head : BranchHead} {written gap body after : Text}

/-- The body on the line of a branch starts behind the blanks that follow the head. -/
theorem reads_inlineBody {body : Text} {m' : Mark} (h : l.Reads [] m (written ++ after))
    (hbody : inlineBody (m.right written.length) after = some (m', body)) :
    ∃ gap, Blank gap ∧ l.Reads (written ++ gap) m' body := by
  rw [inlineBody] at hbody
  split at hbody
  · cases hbody
  · next htrim =>
    obtain ⟨rfl, rfl⟩ := Prod.mk.inj (Option.some.inj hbody)
    have hne : after ≠ [] := by
      rintro rfl
      exact htrim rfl
    exact (h.right hne).trim htrim

/-- The head was read from a line, with the body behind it. -/
def IsOf (head : BranchHead) (m : Mark) (line : Text) : Prop :=
  ∃ written after, line = written ++ after ∧ Spells head.test written ∧
    head.span = m.span line.length ∧ head.inline = inlineBody (m.right written.length) after

theorem isOf_readElse (m : Mark) (rest : Text) :
    (readElse m (['@', 'e', 'l', 's', 'e'] ++ rest)).IsOf m (['@', 'e', 'l', 's', 'e'] ++ rest) :=
  ⟨_, rest, rfl, .last, rfl, rfl⟩

theorem isOf_readTested (h : readTested k m (k.word ++ rest) = .ok head) :
    head.IsOf m (k.word ++ rest) := by
  obtain ⟨gap, inside, after, hgap, hrest, hcl, htrim, rfl⟩ := readTested_eq_ok h
  refine ⟨k.word ++ gap ++ '(' :: inside ++ [')'], after, by simp [hrest],
    .tested hgap hcl htrim, rfl, ?_⟩
  dsimp only
  congr 2
  simp only [hrest, List.length_append, List.length_cons, List.length_nil]
  omega

end BranchHead

/-! ## The header -/

/-- The value of an id was read from the line behind the keyword. -/
theorem TemplateId.located_read {v : Text} (hl : l ∈ Line.ofText src)
    (h : l.Reads [] m (['#', 'i', 'd'] ++ rest))
    (hread : TemplateId.read m (['#', 'i', 'd'] ++ rest) = .ok (o, v)) :
    (o.span v.length).Denotes src v := by
  obtain ⟨hv, hvalue, rfl⟩ := read_eq_ok hread
  have hdrop : (['#', 'i', 'd'] ++ rest).drop 3 = rest := rfl
  rw [hdrop] at hvalue ⊢
  have hne : rest ≠ [] := by
    rintro rfl
    exact ne_nil_of_isValid hv hvalue.symm
  obtain ⟨gap, -, hreads⟩ := (h.right hne).trim (hvalue ▸ ne_nil_of_isValid hv)
  rw [Mark.right_right, hvalue] at hreads
  obtain ⟨back, -, hbefore⟩ := hreads.exists_before
  exact hbefore.denotes hl

end Offside
