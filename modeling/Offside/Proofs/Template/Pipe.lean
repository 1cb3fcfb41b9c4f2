import Mathlib.Data.List.Chain
import Offside.Proofs.Diagnostic
import Offside.Proofs.Template.Bare
import Offside.Proofs.Text.Lines

/-! The text after a pipe. `Spells` says which texts stand for which parts; reading without
diagnostics finds just these, and the parts that come out of it are written so that they are found
again. -/
namespace Offside

open Text

/-- Nowhere does the character follow itself. -/
def Text.NoPair (c : Char) (s : Text) : Prop := s.IsChain fun a b => ¬(a = c ∧ b = c)

/-- What may stand between double braces. -/
structure IsExpression (v : Text) : Prop where
  trimmed : Trimmed v
  noClose : NoPair '}' v
  oneLine : OneLine v

/-- What may stand between expressions. -/
structure IsLiteral (v : Text) : Prop where
  ne_nil : v ≠ []
  noOpen : NoPair '{' v
  noClose : NoPair '}' v
  oneLine : OneLine v

namespace Pipe

/-- The parts that reading finds again in what is written of them. -/
inductive Readable : List Part → Prop
  | nil : Readable []
  | literal {v : Text} : IsLiteral v → EndsSolid v → Readable [.literal v]
  | expression {v : Text} {span : Option Span} {ps : List Part} : IsExpression v → Readable ps →
      Readable (.expression v span :: ps)
  | before {v w : Text} {span : Option Span} {ps : List Part} : IsLiteral v →
      v.getLast? ≠ some '{' → Readable (.expression w span :: ps) →
      Readable (.literal v :: .expression w span :: ps)

/-- No pair of braces begins at a character that a text follows. -/
def Apart (c : Char) (s : Text) : Prop :=
  ∀ d ∈ s.head?, ¬(c = '}' ∧ d = '}') ∧ ¬(c = '{' ∧ d = '{')

/-- The texts that stand for parts. Blanks around an expression are not part of it. -/
inductive Spells : List Part → Text → Prop
  | nil : Spells [] []
  | char {c : Char} {ps : List Part} {s : Text} : Apart c s → Spells ps s →
      Spells (Part.consChar c ps) (c :: s)
  | expression {v : Text} {span : Option Span} {ps : List Part} {s : Text} :
      NoPair '}' (v ++ ['}']) → trim v ≠ [] → Spells ps s →
      Spells (.expression (trim v) span :: ps) ('{' :: '{' :: (v ++ '}' :: '}' :: s))

variable {m : Mark} {ps : List Part} {s v w : Text} {c : Char} {span : Option Span}

/-! ## Reading finds what the text stands for -/

theorem apart_iff : Apart c s ↔
    (∀ t, c = '}' → s = '}' :: t → False) ∧ ∀ t, c = '{' → s = '{' :: t → False := by
  cases s with
  | nil => simp [Apart]
  | cons d s => simp [Apart]

theorem readParts_apart (h : Apart c s) (m : Mark) :
    readParts m none (c :: s) =
      (Part.consChar c (readParts (m.right 1) none s).1, (readParts (m.right 1) none s).2) := by
  rw [readParts]
  · exact (apart_iff.mp h).1
  · exact (apart_iff.mp h).2

theorem readParts_apart_inner (h : Apart c s) (m o : Mark) (inner : Text) :
    readParts m (some (o, inner)) (c :: s) = readParts (m.right 1) (some (o, c :: inner)) s := by
  rw [readParts]
  · exact (apart_iff.mp h).1
  · exact (apart_iff.mp h).2

/-- An opening pair inside an expression makes no closing pair. -/
theorem noPair_open {inner : Text} (h : NoPair '}' (inner.reverse ++ ['{'])) :
    NoPair '}' (('{' :: '{' :: inner).reverse ++ s.head?.toList) := by
  rw [NoPair, List.isChain_append] at h
  rw [NoPair]
  simp only [List.reverse_cons, List.append_assoc, List.singleton_append]
  rw [List.isChain_append]
  refine ⟨h.1, ?_, by simp⟩
  cases s <;> simp

/-- Nor does a character that no pair begins at. -/
theorem noPair_push {inner : Text} (hapart : Apart c s) (h : NoPair '}' (inner.reverse ++ [c])) :
    NoPair '}' ((c :: inner).reverse ++ s.head?.toList) := by
  rw [NoPair, List.reverse_cons, List.isChain_append]
  refine ⟨h, by cases s <;> simp, ?_⟩
  intro a ha b hb
  have : c = a := by simpa using ha
  subst this
  exact (hapart b (by simpa using hb)).1

/-- What has been read inside an expression has no closing pair, nor has it one with the next
character. -/
theorem spells_of_readParts_opened (m : Mark) (opened : Option (Mark × Text)) (s : Text)
    (h : (readParts m opened s).2 = []) :
    (opened = none → Spells (readParts m opened s).1 s) ∧
    ∀ o inner, opened = some (o, inner) → NoPair '}' (inner.reverse ++ s.head?.toList) →
      Spells (readParts m opened s).1 ('{' :: '{' :: (inner.reverse ++ s)) := by
  fun_induction readParts m opened s with
  | case1 m s ps ds hps ih => simp at h
  | case2 m s ps ds hps o inner htrim ih => simp at h
  | case3 m s ps ds hps o inner _ htrim ih =>
    rw [hps] at ih
    refine ⟨by simp, ?_⟩
    intro o' inner' he hno
    obtain ⟨rfl, rfl⟩ := Prod.mk.inj (Option.some.inj he)
    exact Spells.expression (by simpa using hno) htrim ((ih h).1 rfl)
  | case4 m s ih =>
    refine ⟨fun _ => ?_, by simp⟩
    apply (ih h).2 m [] rfl
    cases s <;> simp [NoPair]
  | case5 m s o inner ih =>
    refine ⟨by simp, ?_⟩
    intro o' inner' he hno
    obtain ⟨rfl, rfl⟩ := Prod.mk.inj (Option.some.inj he)
    simpa using (ih h).2 _ _ rfl (noPair_open (by simpa using hno))
  | case6 m c s hclose hopen ps ds hps ih =>
    rw [hps] at ih
    exact ⟨fun _ => Spells.char (apart_iff.mpr ⟨hclose, hopen⟩) ((ih h).1 rfl), by simp⟩
  | case7 m c s hclose hopen o inner ih =>
    refine ⟨by simp, ?_⟩
    intro o' inner' he hno
    obtain ⟨rfl, rfl⟩ := Prod.mk.inj (Option.some.inj he)
    simpa using (ih h).2 _ _ rfl (noPair_push (apart_iff.mpr ⟨hclose, hopen⟩) (by simpa using hno))
  | case8 m => exact ⟨fun _ => Spells.nil, by simp⟩
  | case9 m o inner => simp at h

theorem spells_of_readParts (h : (readParts m none s).2 = []) : Spells (readParts m none s).1 s :=
  (spells_of_readParts_opened m none s h).1 rfl

/-- Up to the closing pair, everything goes into the expression. -/
theorem readParts_inner (s : Text) : ∀ (v : Text) (m o : Mark) (inner : Text),
    NoPair '}' (v ++ ['}']) → readParts m (some (o, inner)) (v ++ '}' :: '}' :: s) =
      readParts (m.right v.length) (some (o, v.reverse ++ inner)) ('}' :: '}' :: s)
  | [], m, o, inner, _ => rfl
  | [c], m, o, inner, h => by
    have hc : c ≠ '}' := by
      rintro rfl
      simp [NoPair] at h
    have hapart : Apart c ('}' :: '}' :: s) := by simp [Apart, hc]
    exact readParts_apart_inner hapart m o inner
  | c :: d :: v, m, o, inner, h => by
    have htail : NoPair '}' ((d :: v) ++ ['}']) := (List.isChain_cons_cons.mp h).2
    have hcd : ¬(c = '}' ∧ d = '}') := (List.isChain_cons_cons.mp h).1
    by_cases hopen : c = '{' ∧ d = '{'
    · obtain ⟨rfl, rfl⟩ := hopen
      have hplace : 2 + v.length = v.length + 1 + 1 := by omega
      rw [List.cons_append, List.cons_append, readParts.eq_3,
        readParts_inner s v (m.right 2) o ('{' :: '{' :: inner) htail.tail]
      simp [hplace]
    · have hapart : Apart c (d :: v ++ '}' :: '}' :: s) := by simp_all [Apart]
      rw [List.cons_append, readParts_apart_inner hapart,
        readParts_inner s (d :: v) (m.right 1) o (c :: inner) htail]
      simp [Nat.add_comm 1]

theorem bare_consChar (c : Char) (ps : List Part) :
    (Part.consChar c ps).map Part.bare = Part.consChar c (ps.map Part.bare) := by
  cases ps with
  | nil => rfl
  | cons p ps => cases p <;> rfl

/-- A text is read as the parts it stands for. -/
theorem readParts_of_spells (h : Spells ps s) (m : Mark) :
    (readParts m none s).2 = [] ∧
      (readParts m none s).1.map Part.bare = ps.map Part.bare := by
  induction h generalizing m with
  | nil => exact ⟨rfl, rfl⟩
  | @char c ps s hapart _ ih =>
    obtain ⟨hds, hps⟩ := ih (m.right 1)
    rw [readParts_apart hapart]
    exact ⟨hds, by rw [bare_consChar, bare_consChar, hps]⟩
  | @expression v span ps s hno htrim _ ih =>
    obtain ⟨hds, hps⟩ := ih (m.right (2 + v.length + 2))
    rw [readParts, readParts_inner s v (m.right 2) m [] hno, readParts]
    simp only [List.append_nil, List.reverse_reverse, Mark.right_right]
    exact ⟨hds, by simp [hps, Part.bare]⟩

/-! ## The parts that come out of reading -/

theorem consChar_cases (c : Char) (ps : List Part) :
    (∃ v qs, ps = .literal v :: qs ∧ Part.consChar c ps = .literal (c :: v) :: qs) ∨
      Part.consChar c ps = .literal [c] :: ps := by
  cases ps with
  | nil => exact Or.inr rfl
  | cons p ps =>
    cases p with
    | literal v => exact Or.inl ⟨v, ps, rfl, rfl⟩
    | expression v span => exact Or.inr rfl

theorem eq_nil_of_spells_nil (h : Spells [] s) : s = [] := by
  generalize hps : ([] : List Part) = ps at h
  cases h with
  | nil => rfl
  | @char c qs s _ _ =>
    rcases consChar_cases c qs with ⟨v, rs, _, he⟩ | he <;> simp [he] at hps
  | expression => simp at hps

theorem head_of_spells_literal (h : Spells (.literal v :: ps) s) : v.head? = s.head? := by
  generalize hqs : Part.literal v :: ps = qs at h
  cases h with
  | nil => simp at hqs
  | @char c qs s _ _ =>
    rcases consChar_cases c qs with ⟨w, rs, _, he⟩ | he
    · rw [he] at hqs
      simp [(Part.literal.inj (List.cons.inj hqs).1)]
    · rw [he] at hqs
      simp [(Part.literal.inj (List.cons.inj hqs).1)]
  | expression => simp at hqs

theorem head_of_spells_expression (h : Spells (.expression v span :: ps) s) :
    s.head? = some '{' := by
  generalize hqs : Part.expression v span :: ps = qs at h
  cases h with
  | nil => simp at hqs
  | @char c qs s _ _ =>
    rcases consChar_cases c qs with ⟨w, rs, _, he⟩ | he <;> simp [he] at hqs
  | expression => rfl

theorem isLiteral_singleton (hc : OneLine [c]) : IsLiteral [c] :=
  ⟨by simp, by simp [NoPair], by simp [NoPair], hc⟩

theorem isLiteral_cons (h : IsLiteral v) (hc : OneLine [c]) (hapart : Apart c v) :
    IsLiteral (c :: v) where
  ne_nil := by simp
  noOpen := List.isChain_cons.mpr ⟨fun d hd => (hapart d hd).2, h.noOpen⟩
  noClose := List.isChain_cons.mpr ⟨fun d hd => (hapart d hd).1, h.noClose⟩
  oneLine := hc.append h.oneLine

theorem NoPair.of_trim {c : Char} (h : NoPair c s) : NoPair c (trim s) := by
  obtain ⟨a, b, _, _, hs⟩ := exists_trim s
  rw [hs, NoPair, List.isChain_append, List.isChain_append] at h
  exact h.1.2.1

/-- A literal never ends where an opening pair begins one character early. -/
theorem readable_of_spells (h : Spells ps s) (hs : EndsSolid s) (hl : OneLine s) : Readable ps := by
  induction h with
  | nil => exact Readable.nil
  | @char c ps s hapart hsp ih =>
    have hc : OneLine [c] := hl.subset (by simp)
    have hread := ih hs.tail (hl.subset fun d hd => List.mem_cons_of_mem c hd)
    cases hread with
    | nil =>
      obtain rfl := eq_nil_of_spells_nil hsp
      exact Readable.literal (isLiteral_singleton hc) hs
    | @literal v hv hend =>
      have hapart' : Apart c v := by rwa [Apart, head_of_spells_literal hsp]
      have hend' : EndsSolid (c :: v) := EndsSolid.append (a := [c]) hend hv.ne_nil
      exact Readable.literal (isLiteral_cons hv hc hapart') hend'
    | @expression v span ps hv hps =>
      refine Readable.before (isLiteral_singleton hc) ?_ (Readable.expression hv hps)
      have hne := (hapart '{' (by simp [head_of_spells_expression hsp])).2
      simpa using hne
    | @before v w span ps hv hlast hps =>
      have hapart' : Apart c v := by rwa [Apart, head_of_spells_literal hsp]
      refine Readable.before (isLiteral_cons hv hc hapart') ?_ hps
      rwa [List.getLast?_cons_of_ne_nil hv.ne_nil]
  | @expression v span ps s hno htrim _ ih =>
    have hv : OneLine v := hl.subset (by simp +contextual)
    have hs' : EndsSolid s :=
      EndsSolid.of_append (a := '{' :: '{' :: (v ++ ['}', '}'])) (by simpa using hs)
    refine Readable.expression ⟨trimmed_trim htrim, ?_, hv.subset (subset_trim v)⟩
      (ih hs' (hl.subset (by simp +contextual)))
    exact NoPair.of_trim (List.isChain_append.mp hno).1

/-! ## What is written stands for the parts -/

/-- Literal text without pairs in it is spelled as it is. -/
theorem spells_literal (hv : NoPair '{' v ∧ NoPair '}' v)
    (hlast : ∀ c ∈ v.getLast?, Apart c s)
    (h : Spells ps s) : Spells (Part.consText v ps) (v ++ s) := by
  induction v with
  | nil => exact h
  | cons c v ih =>
    refine Spells.char ?_ (ih ⟨hv.1.tail, hv.2.tail⟩ ?_)
    · cases v with
      | nil => exact hlast c (by simp)
      | cons d v =>
        intro e he
        obtain rfl : d = e := by simpa using he
        exact ⟨(List.isChain_cons_cons.mp hv.2).1, (List.isChain_cons_cons.mp hv.1).1⟩
    · intro e he
      apply hlast e
      cases v with
      | nil => simp at he
      | cons d v => simpa using he

theorem consText_nil (hv : v ≠ []) : Part.consText v [] = [.literal v] := by
  induction v with
  | nil => exact (hv rfl).elim
  | cons c v ih =>
    cases v with
    | nil => rfl
    | cons d v =>
      have ih := ih (by simp)
      rw [Part.consText] at ih ⊢
      rw [List.foldr_cons, ih]
      rfl

theorem consText_expression (hv : v ≠ []) :
    Part.consText v (.expression w span :: ps) = .literal v :: .expression w span :: ps := by
  induction v with
  | nil => exact (hv rfl).elim
  | cons c v ih =>
    cases v with
    | nil => rfl
    | cons d v =>
      have ih := ih (by simp)
      rw [Part.consText] at ih ⊢
      rw [List.foldr_cons, ih]
      rfl

theorem noPair_spaced (hv : IsExpression v) : NoPair '}' ([' '] ++ v ++ [' '] ++ ['}']) := by
  simp only [NoPair, List.append_assoc]
  rw [List.isChain_append, List.isChain_append]
  refine ⟨by simp, ⟨hv.noClose, by simp, ?_⟩, ?_⟩ <;> simp

theorem spells_written_expression (hv : IsExpression v) (h : Spells ps s) :
    Spells (.expression v span :: ps) (writePart (.expression v span) ++ s) := by
  have htrim : trim ([' '] ++ v ++ [' ']) = v := hv.trimmed.trim_between blank_space blank_space
  have hne : trim ([' '] ++ v ++ [' ']) ≠ [] := by
    rw [htrim]
    exact hv.trimmed.ne_nil
  have := @Spells.expression _ span _ _ (noPair_spaced hv) hne h
  rw [htrim] at this
  simpa [writePart] using this

/-- Readable parts are spelled by what is written of them. -/
theorem Readable.spells (h : Readable ps) : Spells ps (payload ps) := by
  induction h with
  | nil => exact Spells.nil
  | @literal v hv _ =>
    have := spells_literal ⟨hv.noOpen, hv.noClose⟩ (by simp [Apart]) Spells.nil
    rw [consText_nil hv.ne_nil] at this
    simpa [payload, writePart] using this
  | expression hv _ ih => exact spells_written_expression hv ih
  | @before v w span ps hv hlast _ ih =>
    have := spells_literal ⟨hv.noOpen, hv.noClose⟩ ?_ ih
    · rwa [consText_expression hv.ne_nil] at this
    · intro c hc d hd
      rw [head_of_spells_expression ih] at hd
      obtain rfl : '{' = d := by simpa using hd
      refine ⟨by simp, ?_⟩
      rintro ⟨rfl, -⟩
      exact hlast hc

/-! ## The pipe and its text -/

/-- What is written of readable parts does not end with a blank. -/
theorem Readable.endsSolid (h : Readable ps) : EndsSolid (payload ps) := by
  induction h with
  | nil => exact endsSolid_nil
  | literal _ hend => simpa [payload, writePart] using hend
  | @expression v span ps hv hps ih =>
    rw [payload, List.flatMap_cons]
    by_cases hp : payload ps = []
    · have hw : writePart (.expression v span) = ['{', '{', ' '] ++ v ++ [' ', '}'] ++ ['}'] := by
        simp [writePart]
      rw [show ps.flatMap writePart = [] from hp, List.append_nil, hw]
      exact endsSolid_concat.mpr rfl
    · exact ih.append hp
  | @before v w span ps hv _ hps ih =>
    rw [payload, List.flatMap_cons]
    exact ih.append (by simp [payload, writePart])

theorem Readable.oneLine (h : Readable ps) : OneLine (payload ps) := by
  induction h with
  | nil => simp [payload, OneLine]
  | literal hv _ => simpa [payload, writePart] using hv.oneLine
  | expression hv _ ih =>
    rw [payload, List.flatMap_cons]
    refine OneLine.append (OneLine.append (OneLine.append ?_ hv.oneLine) ?_) ih <;> simp [OneLine]
  | before hv _ _ ih =>
    rw [payload, List.flatMap_cons]
    exact hv.oneLine.append ih

/-- What is written of parts has the ink of the text that spells them. -/
theorem ink_payload_of_spells (h : Spells ps s) : ink (payload ps) = ink s := by
  induction h with
  | nil => rfl
  | @char c ps s _ _ ih =>
    have hcons : payload (Part.consChar c ps) = [c] ++ payload ps := by
      cases ps with
      | nil => rfl
      | cons p ps => cases p <;> rfl
    rw [hcons, ink_append, ih, ← ink_append, List.singleton_append]
  | @expression v span ps s _ _ _ ih =>
    have hw : payload (.expression (trim v) span :: ps) =
        ['{', '{', ' '] ++ trim v ++ [' ', '}', '}'] ++ payload ps := rfl
    have hs : '{' :: '{' :: (v ++ '}' :: '}' :: s) = ['{', '{'] ++ v ++ ['}', '}'] ++ s := by simp
    rw [hw, hs]
    simp only [ink_append, ink_trim, ih]
    rfl

/-- What is wrong with a payload is reported on its line. -/
theorem readParts_diagnostics (m : Mark) (opened : Option (Mark × Text)) (s : Text)
    (ho : ∀ o inner, opened = some (o, inner) → o.line = m.line) :
    ∀ d ∈ (readParts m opened s).2, d.OnLine m.line ∧ d.code = some .invalidExpression := by
  fun_induction readParts m opened s with
  | case1 m s ps ds hps ih =>
    rw [hps] at ih
    intro d hd
    rcases List.mem_cons.mp hd with rfl | hd
    · exact ⟨m.diagnose_onLine .strayClose 2, rfl⟩
    · exact ih (by simp) d hd
  | case2 m s ps ds hps o inner _ _ ih =>
    rw [hps] at ih
    have hline := ho o inner rfl
    intro d hd
    rcases List.mem_cons.mp hd with rfl | hd
    · exact ⟨hline ▸ o.diagnose_onLine .emptyInlineExpression _, rfl⟩
    · exact ih (by simp) d hd
  | case3 m s ps ds hps o inner _ _ ih =>
    rw [hps] at ih
    exact ih (by simp)
  | case4 m s ih => exact ih (by rintro o inner ⟨⟩; rfl)
  | case5 m s o inner ih =>
    refine ih ?_
    rintro o' inner' ⟨⟩
    exact ho o inner rfl
  | case6 m c s _ _ ps ds hps ih =>
    rw [hps] at ih
    exact ih (by simp)
  | case7 m c s _ _ o inner ih =>
    refine ih ?_
    rintro o' inner' ⟨⟩
    exact ho o inner rfl
  | case8 m => simp
  | case9 m o inner =>
    have hline := ho o inner rfl
    intro d hd
    obtain rfl := List.mem_singleton.mp hd
    exact ⟨hline ▸ o.diagnose_onLine .openExpression 1, rfl⟩

/-- One space after the pipe belongs to the pipe. -/
theorem read_cases (m : Mark) (placement : Placement) (t : Text) :
    ∃ m' rest, m'.line = m.line ∧ (t = ' ' :: rest ∨ t = rest ∧ rest.head? ≠ some ' ') ∧
      Pipe.read m placement ('|' :: t) =
        (.text (readParts m' none rest).1 placement (some (m.span (t.length + 1))),
          (readParts m' none rest).2) := by
  cases t with
  | nil => exact ⟨m.right 1, [], rfl, by simp, rfl⟩
  | cons c t =>
    by_cases hc : c = ' '
    · subst hc
      exact ⟨m.right 2, t, rfl, by simp, rfl⟩
    · refine ⟨m.right 1, c :: t, rfl, by simp [hc], ?_⟩
      rw [Pipe.read]
      simp only [List.drop_one, List.tail_cons]
      split
      · next he => exact (hc (List.cons.inj he).1).elim
      · rfl

/-- The property holds of all parts that are read without more being reported. -/
def Yields (P : List Part → Prop) (ds : List Diagnostic) : Prop :=
  ∀ m s, EndsSolid s → OneLine s → (∀ d ∈ (readParts m none s).2, d ∈ ds) →
    P (readParts m none s).1

theorem Yields.mono {P : List Part → Prop} {ds es : List Diagnostic} (h : Yields P es)
    (hsub : ∀ d ∈ ds, d ∈ es) : Yields P ds :=
  fun m s hs hl hds => h m s hs hl fun d hd => hsub d (hds d hd)

theorem yields_readable {ds : List Diagnostic} (h : ∀ d ∈ ds, d.code ≠ some .invalidExpression) :
    Yields Readable ds := by
  intro m s hs hl hds
  have hnil : (readParts m none s).2 = [] := by
    apply List.eq_nil_iff_forall_not_mem.mpr
    intro d hd
    exact h d (hds d hd) (readParts_diagnostics m none s (by simp) d hd).2
  exact readable_of_spells (spells_of_readParts hnil) hs hl

/-- What comes of a text. Without a diagnostic nothing that can be seen is lost. -/
theorem read_pipe (m : Mark) (placement : Placement) {t : Text} (hs : EndsSolid t)
    (hl : OneLine t) : ∃ ps ds,
      Pipe.read m placement ('|' :: t) = (.text ps placement (some (m.span (t.length + 1))), ds) ∧
      (∀ d ∈ ds, d.OnLine m.line) ∧ (∀ P, Yields P ds → P ps) ∧
      (ds = [] → ink (payload ps) = ink t) := by
  obtain ⟨m', rest, hline, hrest, hread⟩ := read_cases m placement t
  refine ⟨_, _, hread, ?_, ?_, ?_⟩
  · intro d hd
    exact hline ▸ (readParts_diagnostics m' none rest (by simp) d hd).1
  · intro P hP
    rcases hrest with rfl | ⟨rfl, _⟩
    · exact hP m' rest hs.tail (hl.subset fun c hc => List.mem_cons_of_mem _ hc) fun d hd => hd
    · exact hP m' t hs hl fun d hd => hd
  · intro hds
    rw [ink_payload_of_spells (spells_of_readParts hds)]
    rcases hrest with rfl | ⟨rfl, _⟩
    · rw [ink_cons_of_blank rfl]
    · rfl

theorem write_eq (spaced : Bool) (ps : List Part) : ∃ t, write spaced ps = '|' :: t ∧
    (t = ' ' :: payload ps ∧ payload ps ≠ [] ∨
      t = payload ps ∧ (payload ps).head? ≠ some ' ') := by
  rw [write]
  cases hp : payload ps with
  | nil => exact ⟨[], rfl, by simp⟩
  | cons c s =>
    simp only
    split
    · exact ⟨_, rfl, by simp⟩
    · next h => exact ⟨_, rfl, by simp_all⟩

/-- Readable parts come back from what is written of them. -/
theorem read_write (h : Readable ps) (m : Mark) (placement : Placement) (spaced : Bool) :
    ∃ qs span, Pipe.read m placement (write spaced ps) = (.text qs placement (some span), []) ∧
      span.start.line = m.line ∧ qs.map Part.bare = ps.map Part.bare := by
  obtain ⟨t, ht, hcases⟩ := write_eq spaced ps
  obtain ⟨m', rest, _, hrest, hread⟩ := read_cases m placement t
  have hpayload : rest = payload ps := by
    rcases hcases with ⟨rfl, _⟩ | ⟨rfl, hne⟩ <;> rcases hrest with he | ⟨he, hne'⟩
    · exact (List.cons.inj he).2.symm
    · simp [← he] at hne'
    · simp [he] at hne
    · exact he.symm
  obtain ⟨hds, hps⟩ := readParts_of_spells h.spells m'
  rw [ht, hread, hpayload, hds]
  exact ⟨_, _, rfl, rfl, hps⟩

theorem endsSolid_write (h : Readable ps) (spaced : Bool) : EndsSolid (write spaced ps) := by
  obtain ⟨t, ht, hcases⟩ := write_eq spaced ps
  rw [ht]
  rcases hcases with ⟨rfl, hne⟩ | ⟨rfl, _⟩
  · exact h.endsSolid.append (a := ['|', ' ']) hne
  · by_cases hp : payload ps = []
    · rw [hp]
      exact endsSolid_concat (s := []).mpr rfl
    · exact h.endsSolid.append (a := ['|']) hp

theorem oneLine_write (h : Readable ps) (spaced : Bool) : OneLine (write spaced ps) := by
  obtain ⟨t, ht, hcases⟩ := write_eq spaced ps
  rw [ht]
  rcases hcases with ⟨rfl, _⟩ | ⟨rfl, _⟩
  · exact OneLine.append (s := ['|', ' ']) (by simp [OneLine]) h.oneLine
  · exact OneLine.append (s := ['|']) (by simp [OneLine]) h.oneLine

theorem ink_write (spaced : Bool) (ps : List Part) :
    ink (write spaced ps) = '|' :: ink (payload ps) := by
  obtain ⟨t, ht, hcases⟩ := write_eq spaced ps
  rw [ht, ink_cons_of_solid rfl]
  rcases hcases with ⟨rfl, _⟩ | ⟨rfl, _⟩
  · rw [ink_cons_of_blank rfl]
  · rfl

end Pipe

end Offside
