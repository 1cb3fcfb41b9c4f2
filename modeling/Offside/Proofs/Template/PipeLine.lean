import Offside.Proofs.Template.Margin
import Offside.Proofs.Template.WellFormed

/-! Which texts come back from the line that is written of them. Nothing on that line tells two
neighbouring literals apart, nor a brace of a literal from one of the braces around an expression,
and blanks at the end of a line are lost; whatever is free of that is read as it was. -/
namespace Offside

open Text

/-- The part can stand between others: a literal has no pair of braces in it, and an expression
neither blanks around it nor a pair that would close it. -/
def Part.Fits : Part → Prop
  | .literal v => v ≠ [] ∧ NoPair '{' v ∧ NoPair '}' v
  | .expression v _ => Trimmed v ∧ NoPair '}' v

namespace Pipe

/-- The parts can be told apart where they are written side by side. -/
structure Separable (ps : List Part) : Prop where
  fits : ∀ p ∈ ps, p.Fits
  apart : ps.IsChain fun p q => ¬(p.isLiteral = true ∧ q.isLiteral = true)
  opened : ps.IsChain fun p q =>
    p.isLiteral = true → q.isLiteral = false → p.value.getLast? ≠ some '{'
  last : ∀ v, ps.getLast? = some (.literal v) → EndsSolid v

/-- What is written of the parts is read as one text with the same parts, and nothing is
reported. -/
def ComesBack (spaced : Bool) (ps : List Part) : Prop :=
  ∃ qs span, (Template.read (write spaced ps)).template.children = [.text qs .block span] ∧
    sameAll Part.same qs ps = true ∧ (Template.read (write spaced ps)).diagnostics = []

variable {p : Part} {ps qs : List Part} {t : Text} {spaced : Bool}

/-! ## Readable parts -/

theorem separable_nil : Separable [] := ⟨by simp, .nil, .nil, by simp⟩

theorem Separable.cons (h : Separable ps) (hp : p.Fits)
    (hhead : ∀ q ∈ ps.head?, ¬(p.isLiteral = true ∧ q.isLiteral = true) ∧
      (p.isLiteral = true → q.isLiteral = false → p.value.getLast? ≠ some '{'))
    (hlast : ps = [] → ∀ v, p = .literal v → EndsSolid v) : Separable (p :: ps) where
  fits := List.forall_mem_cons.mpr ⟨hp, h.fits⟩
  apart := List.isChain_cons.mpr ⟨fun q hq => (hhead q hq).1, h.apart⟩
  opened := List.isChain_cons.mpr ⟨fun q hq => (hhead q hq).2, h.opened⟩
  last v hv := by
    cases ps with
    | nil => exact hlast rfl v (by simpa using hv)
    | cons q ps => exact h.last v (by simpa using hv)

theorem Separable.tail (h : Separable (p :: ps)) : Separable ps where
  fits q hq := h.fits q (List.mem_cons_of_mem p hq)
  apart := h.apart.tail
  opened := h.opened.tail
  last v hv := h.last v (by cases ps <;> simp_all)

theorem Readable.separable (h : Readable ps) : Separable ps := by
  induction h with
  | nil => exact separable_nil
  | literal hv hend =>
    refine separable_nil.cons ⟨hv.ne_nil, hv.noOpen, hv.noClose⟩ (by simp) fun _ v hv => ?_
    exact Part.literal.inj hv ▸ hend
  | expression hv _ ih =>
    exact ih.cons ⟨hv.trimmed, hv.noClose⟩ (by simp [Part.isLiteral]) (by simp)
  | before hv hlast _ ih =>
    refine ih.cons ⟨hv.ne_nil, hv.noOpen, hv.noClose⟩ ?_ (by simp)
    simpa [Part.isLiteral, Part.value] using hlast

/-- Parts that can be told apart are read again. -/
theorem Separable.readable : ∀ {ps : List Part}, Separable ps → (∀ p ∈ ps, OneLine p.value) →
    Readable ps
  | [], _, _ => .nil
  | .expression v span :: ps, h, hl => by
    obtain ⟨htrimmed, hclose⟩ := h.fits _ List.mem_cons_self
    obtain ⟨hv, hps⟩ := List.forall_mem_cons.mp hl
    exact .expression ⟨htrimmed, hclose, hv⟩ (h.tail.readable hps)
  | [.literal v], h, hl => by
    obtain ⟨hne, hopen, hclose⟩ := h.fits _ List.mem_cons_self
    exact .literal ⟨hne, hopen, hclose, hl _ List.mem_cons_self⟩ (h.last v rfl)
  | .literal v :: .literal w :: ps, h, _ =>
    ((List.isChain_cons_cons.mp h.apart).1 ⟨rfl, rfl⟩).elim
  | .literal v :: .expression w span :: ps, h, hl => by
    obtain ⟨hne, hopen, hclose⟩ := h.fits _ List.mem_cons_self
    obtain ⟨hv, hps⟩ := List.forall_mem_cons.mp hl
    have hlast : v.getLast? ≠ some '{' := (List.isChain_cons_cons.mp h.opened).1 rfl rfl
    exact .before ⟨hne, hopen, hclose, hv⟩ hlast (h.tail.readable hps)

@[simp] theorem fits_bare (p : Part) : p.bare.Fits ↔ p.Fits := by cases p <;> rfl

@[simp] theorem isLiteral_bare (p : Part) : p.bare.isLiteral = p.isLiteral := by cases p <;> rfl

@[simp] theorem value_bare (p : Part) : p.bare.value = p.value := by cases p <;> rfl

@[simp] theorem bare_eq_literal (p : Part) (v : Text) : p.bare = .literal v ↔ p = .literal v := by
  cases p <;> simp [Part.bare]

/-- Places play no part in whether parts can be told apart. -/
theorem separable_bare : Separable (ps.map Part.bare) ↔ Separable ps := by
  constructor
  · rintro ⟨hfits, hapart, hopened, hlast⟩
    exact ⟨by simpa using hfits, by simpa [List.isChain_map] using hapart,
      by simpa [List.isChain_map] using hopened, by simpa [List.getLast?_map] using hlast⟩
  · rintro ⟨hfits, hapart, hopened, hlast⟩
    exact ⟨by simpa using hfits, by simpa [List.isChain_map] using hapart,
      by simpa [List.isChain_map] using hopened, by simpa [List.getLast?_map] using hlast⟩

/-! ## The line of a text -/

theorem trimEnd_cons_pipe (t : Text) : trimEnd ('|' :: t) = '|' :: trimEnd t := by
  obtain ⟨blanks, hblanks, ht⟩ := exists_trimEnd t
  have hsolid : EndsSolid ('|' :: trimEnd t) := by
    by_cases hnil : trimEnd t = []
    · rw [hnil]
      exact endsSolid_concat (s := []).mpr rfl
    · exact (endsSolid_trimEnd t).append (a := ['|']) hnil
  calc trimEnd ('|' :: t)
      = trimEnd ('|' :: trimEnd t ++ blanks) := by rw [List.cons_append, ← ht]
    _ = trimEnd ('|' :: trimEnd t) := trimEnd_append_of_blank hblanks _
    _ = '|' :: trimEnd t := trimEnd_eq_self hsolid

theorem ofLine_pipe (hl : OneLine t) :
    Margin.ofLine ('|' :: t) = .level 0 ('|' :: trimEnd t) := by
  have hblank : ¬ ('|' :: t).all isBlank = true := by simp [isBlank]
  have htab : ('|' :: t).findIdx? (· == '\t') = none := by
    rw [List.findIdx?_eq_none_iff]
    exact List.forall_mem_cons.mpr ⟨rfl, fun c hc => by simpa using (hl c hc).2.2⟩
  have hspaces : Margin.spaces ('|' :: t) = 0 := by simp [Margin.spaces]
  rw [Margin.ofLine, if_neg hblank, htab, hspaces]
  simp [trimEnd_cons_pipe]

/-- A line that a pipe leads adds one text, read from what is left of it without the blanks at its
end. -/
theorem outline_pipe (hl : OneLine t) (m : Mark) (hm : m = ⟨1, 1, 0⟩) :
    Template.outline ('|' :: t) =
      ((Outliner.start (some (Template.wholeSpan ('|' :: t)))).add
        (Pipe.read m .block ('|' :: trimEnd t)).1).note
          (Pipe.read m .block ('|' :: trimEnd t)).2 := by
  have hline : OneLine ('|' :: t) := OneLine.append (s := ['|']) (by simp [OneLine]) hl
  have hlines : Line.ofText ('|' :: t) = [⟨1, 0, '|' :: t⟩] := by
    rw [Line.ofText, lines, splitWhen_of_all_neg hline.unbroken.line_feed]
    rfl
  rw [Template.outline, hlines, List.foldl_cons, Outliner.step, ofLine_pipe hl, hm]
  rfl

/-- A text alone is read as one node, or with the reports about its parts. -/
theorem read_pipeLine (hl : OneLine t) : ∃ ps ds span,
    Pipe.read ⟨1, 1, 0⟩ .block ('|' :: trimEnd t) = (.text ps .block span, ds) ∧
      (Template.read ('|' :: t)).template.children = [.text ps .block span] ∧
      (Template.read ('|' :: t)).diagnostics = ds := by
  have hunified : unifyNewlines ('|' :: t) = '|' :: t :=
    unifyNewlines_of_not_mem fun h => by
      rcases List.mem_cons.mp h with h | h
      · cases h
      · exact (hl _ h).2.1 rfl
  refine ⟨_, _, _, rfl, ?_, ?_⟩
  · rw [Template.read, hunified, outline_pipe hl _ rfl]
    rfl
  · rw [Template.read, hunified, outline_pipe hl _ rfl]
    exact List.append_nil _

/-! ## Which parts come back -/

theorem oneLine_payload (hl : ∀ p ∈ ps, OneLine p.value) : OneLine (payload ps) := by
  intro c hc
  obtain ⟨p, hp, hc⟩ := List.mem_flatMap.mp hc
  have hpart : OneLine (writePart p) := by
    cases p with
    | literal v => exact hl _ hp
    | expression v span =>
      refine OneLine.append (OneLine.append ?_ (hl _ hp)) ?_ <;> simp [OneLine]
  exact hpart c hc

theorem oneLine_written (hl : ∀ p ∈ ps, OneLine p.value) (ht : write spaced ps = '|' :: t) :
    OneLine t := by
  obtain ⟨u, hu, hcases⟩ := write_eq spaced ps
  obtain rfl : t = u := (List.cons.inj (ht.symm.trans hu)).2
  rcases hcases with ⟨rfl, -⟩ | ⟨rfl, -⟩
  · exact OneLine.append (s := [' ']) (by simp [OneLine]) (oneLine_payload hl)
  · exact oneLine_payload hl

theorem comesBack_of_separable (h : Separable ps) (hl : ∀ p ∈ ps, OneLine p.value)
    (spaced : Bool) : ComesBack spaced ps := by
  have hread := h.readable hl
  obtain ⟨t, ht, -⟩ := write_eq spaced ps
  have hends : EndsSolid t := (ht ▸ endsSolid_write hread spaced).tail
  have hline : OneLine t := oneLine_written hl ht
  obtain ⟨qs, span, hqs, -, hbare⟩ := read_write hread ⟨1, 1, 0⟩ .block spaced
  obtain ⟨qs', ds, span', hqs', hchildren, hds⟩ := read_pipeLine hline
  rw [trimEnd_eq_self hends, ← ht, hqs] at hqs'
  obtain ⟨hnode, rfl⟩ := Prod.mk.inj hqs'
  rw [ComesBack, ht]
  exact ⟨qs, some span, hnode ▸ hchildren, (sameAll_iff Part.same_iff qs ps).mpr hbare, hds⟩

/-- What is read without a report can be told apart, and so can the same parts elsewhere. -/
theorem separable_of_comesBack (h : ComesBack spaced ps) (hl : ∀ p ∈ ps, OneLine p.value) :
    Separable ps := by
  obtain ⟨t, ht, -⟩ := write_eq spaced ps
  have hline : OneLine t := oneLine_written hl ht
  obtain ⟨qs, span, hchildren, hsame, hnil⟩ := h
  rw [ht] at hchildren hnil
  obtain ⟨qs', ds, span', hread, hchildren', rfl⟩ := read_pipeLine hline
  have hqs : qs = qs' := by
    rw [hchildren] at hchildren'
    exact (Node.text.inj (List.cons.inj hchildren').1).1
  obtain ⟨qs'', ds, hread', -, hyields, -⟩ := read_pipe ⟨1, 1, 0⟩ .block (endsSolid_trimEnd t)
    (hline.subset (subset_trimEnd t))
  rw [hread'] at hread
  obtain ⟨hnode, hds⟩ := Prod.mk.inj hread
  have hreadable : Readable qs := by
    rw [hqs, ← (Node.text.inj hnode).1]
    exact hyields Readable (yields_readable (by simp [hds, hnil]))
  rw [← separable_bare, ← (sameAll_iff Part.same_iff qs ps).mp hsame, separable_bare]
  exact hreadable.separable

/-- Parts without line ends and tabs come back from the line that is written of them just if they
can be told apart there, with or without a space behind the pipe. -/
theorem comesBack_iff (hl : ∀ p ∈ ps, OneLine p.value) (spaced : Bool) :
    ComesBack spaced ps ↔ Separable ps :=
  ⟨fun h => separable_of_comesBack h hl, fun h => comesBack_of_separable h hl spaced⟩

/-- Braces next to the braces of an expression, but no pair of them. -/
def bracedParts : List Part :=
  [.literal [' ', 'a', '}'], .expression ['{', '{', ' ', 'b', ' ', '}'] none,
    .literal ['}', ' ', 'c', '{']]

/-- A brace that makes a pair with the first brace of the expression behind it. -/
def touchingParts : List Part := [.literal ['a', '{'], .expression ['b'] none]

theorem comesBack_iff_braces :
    ((∀ p ∈ bracedParts, OneLine p.value) ∧ ComesBack false bracedParts) ∧
      (∀ p ∈ touchingParts, OneLine p.value) ∧ ¬ ComesBack true touchingParts := by
  have hbraced : ∀ p ∈ bracedParts, OneLine p.value := by
    simp [bracedParts, Part.value, OneLine]
  have htouching : ∀ p ∈ touchingParts, OneLine p.value := by
    simp [touchingParts, Part.value, OneLine]
  have hseparable : Separable bracedParts := by
    refine ⟨?_, ?_, ?_, ?_⟩
    · simp only [bracedParts, List.forall_mem_cons, Part.Fits, NoPair]
      refine ⟨by simp, ⟨⟨by simp, ?_, ?_⟩, by simp⟩, by simp⟩ <;> intro c hc <;>
        obtain rfl := Option.some.inj hc <;> rfl
    · simp [bracedParts, Part.isLiteral]
    · simp [bracedParts, Part.isLiteral, Part.value]
    · intro v hv c hc
      obtain rfl := Part.literal.inj (Option.some.inj hv)
      obtain rfl := Option.some.inj hc
      rfl
  refine ⟨⟨hbraced, (comesBack_iff hbraced false).mpr hseparable⟩, htouching, fun h => ?_⟩
  have hopened := ((comesBack_iff htouching true).mp h).opened
  exact (List.isChain_cons_cons.mp hopened).1 rfl rfl rfl

end Pipe

end Offside
