import Offside.Proofs.Markup.Tag

/-! Reading markup without expressions. Each piece of content is one step of the reader, and what
nests in it is shorter, so that the readers for a text are deep enough. -/
namespace Offside.Markup

open Text

variable {d p q r : Nat} {s t value : Text} {c : Char} {n : Nested} {typed target : Bool}

/-! ## Quoted texts -/

/-- Each character of a quoted text is read as it was written. -/
theorem readStringEnd_quoteChar (c : Char) (s : Text) :
    readStringEnd '"' p 0 (quoteChar c ++ s) =
      readStringEnd '"' (p + (quoteChar c).length) 0 s := by
  rw [quoteChar.eq_def]
  iterate 7
    split
    · rfl
  split
  · next hsmall =>
    have hdigits : ∀ n < 32, hexDigits 4 n = ['0', '0', hexDigit (n / 16), hexDigit (n % 16)] ∧
        isHexDigit (hexDigit (n / 16)) = true ∧ isHexDigit (hexDigit (n % 16)) = true := by
      decide
    obtain ⟨heq, hhigh, hlow⟩ := hdigits c.toNat hsmall
    generalize hexDigit (c.toNat / 16) = x at heq hhigh
    generalize hexDigit (c.toNat % 16) = y at heq hlow
    have hzero : isHexDigit '0' = true := rfl
    have hescape : escapeLength? ('u' :: '0' :: '0' :: x :: y :: s) = some 5 := by
      simp [escapeLength?, hzero, hhigh, hlow]
    simp [heq, readStringEnd, hescape, Nat.add_assoc]
  · simp_all [readStringEnd]

theorem readStringEnd_quoted (value s : Text) :
    readStringEnd '"' p 0 (value.flatMap quoteChar ++ '"' :: s) =
      some ⟨p + (value.flatMap quoteChar).length + 1, s⟩ := by
  induction value generalizing p with
  | nil => simp [readStringEnd]
  | cons c value ih =>
    rw [List.flatMap_cons, List.append_assoc, readStringEnd_quoteChar, ih, List.length_append,
      Nat.add_assoc p]

theorem readString_quote (value s : Text) :
    readString ⟨p, Text.quote value ++ s⟩ =
      some (.mk .string p (p + (Text.quote value).length) [],
        ⟨p + (Text.quote value).length, s⟩) := by
  have hwrite : Text.quote value ++ s = '"' :: (value.flatMap quoteChar ++ '"' :: s) := by
    simp [Text.quote]
  have hlength : (Text.quote value).length = 1 + (value.flatMap quoteChar).length + 1 := by
    simp [Text.quote]
    omega
  rw [readString, hwrite, hlength]
  simp [readStringEnd_quoted, Nat.add_assoc]

/-! ## Expressions that stand alone -/

/-- What ends an expression, and a statement. -/
def Closes (s : Text) : Prop := ∃ c t, s = c :: t ∧ (c = '}' ∨ c = ')' ∨ c = ';')

theorem Closes.trailer_eq (h : Closes s) :
    Expression.trailer n target ⟨p, s⟩ = some (.done [] target ⟨p, s⟩) := by
  obtain ⟨c, t, rfl, rfl | rfl | rfl⟩ := h <;> rfl

theorem Closes.link_eq (h : Closes s) :
    Expression.link n typed target ⟨p, s⟩ = some (.done [] target ⟨p, s⟩) := by
  obtain ⟨c, t, rfl, rfl | rfl | rfl⟩ := h <;> rfl

/-- An operand with nothing before it, and the end behind it, is a whole expression. -/
theorem Expression.read_of_primary {node : Node} (hsteps : n.steps = r + 1)
    (hlead : Expression.lead? ⟨p, s⟩ = none)
    (hprimary : Expression.readPrimary n typed ⟨p, s⟩ = some (node, ⟨q, t⟩)) (ht : Closes t) :
    Expression.read n typed ⟨p, s⟩ = some (node, ⟨q, t⟩) := by
  have hleads : repeatStep Expression.leads n.steps () ⟨p, s⟩ = some ([], (), ⟨p, s⟩) := by
    rw [hsteps]
    exact repeatStep_done (by rw [Expression.leads, hlead])
  have htrailer : ∀ b, repeatStep (Expression.trailer n) n.steps b ⟨q, t⟩ =
      some ([], b, ⟨q, t⟩) := by
    intro b
    rw [hsteps]
    exact repeatStep_done ht.trailer_eq
  have hlink : ∀ b, repeatStep (Expression.link n typed) n.steps b ⟨q, t⟩ =
      some ([], b, ⟨q, t⟩) := by
    intro b
    rw [hsteps]
    exact repeatStep_done ht.link_eq
  simp [Expression.read, Expression.readOperand, hleads, hprimary, htrailer, hlink]

theorem Nested.sequence_of_expression {node : Node} (hsteps : n.steps = r + 1)
    (h : n.expression typed ⟨p, s⟩ = some (node, ⟨q, t⟩)) (ht : Closes t) :
    n.sequence typed ⟨p, s⟩ = some (node, ⟨q, t⟩) := by
  have hstep : repeatStep (Nested.sequence.step n typed) n.steps () ⟨q, t⟩ =
      some ([], (), ⟨q, t⟩) := by
    rw [hsteps]
    obtain ⟨c, t, rfl, rfl | rfl | rfl⟩ := ht <;> rfl
  simp [Nested.sequence, h, hstep]

/-- A quoted text between braces is an expression that is a string. -/
theorem braces_quotedText (hsteps : n.steps = r + 1) {m : Nested} {more : Nat}
    (hmore : m.steps = more + 1) (hexpression : n.expression = Expression.read m)
    (value s : Text) :
    n.braces ⟨p, Ir.quotedText value ++ s⟩ =
      some (.mk .expression p (p + 1 + (Text.quote value).length + 1)
        [.mk .string (p + 1) (p + 1 + (Text.quote value).length) []],
        ⟨p + 1 + (Text.quote value).length + 1, s⟩) := by
  have hwrite : Ir.quotedText value ++ s = '{' :: (Text.quote value ++ '}' :: s) := by
    simp [Ir.quotedText]
  have hclose : Closes ('}' :: s) := ⟨'}', s, rfl, Or.inl rfl⟩
  have hread : n.expression true ⟨p + 1, Text.quote value ++ '}' :: s⟩ =
      some (.mk .string (p + 1) (p + 1 + (Text.quote value).length) [],
        ⟨p + 1 + (Text.quote value).length, '}' :: s⟩) := by
    rw [hexpression]
    exact Expression.read_of_primary hmore rfl (readString_quote value _) hclose
  have hsequence := Nested.sequence_of_expression hsteps hread hclose
  have hgap : openGap ⟨p + 1, Text.quote value ++ '}' :: s⟩ =
      some ([], ⟨p + 1, Text.quote value ++ '}' :: s⟩) := rfl
  have hnone : (⟨p + 1, Text.quote value ++ '}' :: s⟩ : Cursor).expectChar? '}' = none := rfl
  have hspread : n.spread ⟨p + 1, Text.quote value ++ '}' :: s⟩ = none := rfl
  have hbrace : ∀ q, readClosing '}' ⟨q, '}' :: s⟩ = some ([], ⟨q + 1, s⟩) := fun q => rfl
  have hopen : (⟨p, '{' :: (Text.quote value ++ '}' :: s)⟩ : Cursor).expectChar? '{' =
      some ⟨p + 1, Text.quote value ++ '}' :: s⟩ := rfl
  simp [Nested.braces, hwrite, hopen, hgap, hnone, hspread, hsequence, hbrace]

/-! ## Content -/

namespace Tag

/-- A run of text is read up to the tag or the brace behind it. -/
theorem step_text {run : Text} (hne : run ≠ []) (hrun : ∀ c ∈ run, endsMarkupText c = false)
    (hs : ∀ c ∈ s.head?, endsMarkupText c = true) :
    readContent.step n () ⟨p, run ++ s⟩ =
      some (.more (if showsText false run then [.mk .text p (p + run.length) []] else []) ()
        ⟨p + run.length, s⟩) := by
  have htake : (run ++ s).takeWhile (!endsMarkupText ·) = run :=
    takeWhile_append (fun d hd => by simp [hrun d hd]) fun d hd => by simp [hs d hd]
  obtain ⟨c, w, rfl⟩ := List.exists_cons_of_ne_nil hne
  have hc := hrun c List.mem_cons_self
  have hcases : c ≠ '<' ∧ c ≠ '{' ∧ c ≠ '&' := by
    refine ⟨?_, ?_, ?_⟩ <;> rintro rfl <;> cases hc
  rw [List.cons_append] at htake ⊢
  simp [readContent.step, hcases, hc, htake, Cursor.skip]

/-- A quoted text between braces is one node. -/
theorem step_quoted (value s : Text) :
    readContent.step (Nested.upTo (r + 1) (d + 2)) () ⟨p, Ir.quotedText value ++ s⟩ =
      some (.more [.mk .expression p (p + 1 + (Text.quote value).length + 1)
        [.mk .string (p + 1) (p + 1 + (Text.quote value).length) []]] ()
        ⟨p + 1 + (Text.quote value).length + 1, s⟩) := by
  have hbraces := braces_quotedText (n := Nested.upTo (r + 1) (d + 2)) (p := p) rfl
    (m := Nested.upTo (r + 1) (d + 1)) rfl rfl value s
  obtain ⟨w, hw⟩ : ∃ w, Ir.quotedText value ++ s = '{' :: w := ⟨_, rfl⟩
  rw [hw] at hbraces ⊢
  simp [readContent.step, hbraces]

theorem step_markup {node : Node} {next : Cursor} (hc : c ≠ '/' ∧ c ≠ '!')
    (h : n.markup ⟨p, '<' :: c :: s⟩ = some (node, next)) :
    readContent.step n () ⟨p, '<' :: c :: s⟩ = some (.more [node] () next) := by
  simp [readContent.step, hc, h]

/-- No name starts as a closing tag or a comment. -/
theorem exists_label {l : Label} (hl : l.Valid) :
    ∃ c w, l.write = c :: w ∧ c ≠ '/' ∧ c ≠ '!' := by
  obtain ⟨c, w, hw, hc⟩ := hl.name.starts
  exact ⟨c, w ++ Ir.writeAttributes l.classes [], by simp [Label.write, hw],
    ne_of_isAlpha hc rfl, ne_of_isAlpha hc rfl⟩

theorem exists_opening {l : Option Label} (hl : ∀ k ∈ l, k.Valid) (s : Text) :
    ∃ c w, Content.opening l ++ '>' :: s = c :: w ∧ c ≠ '/' ∧ c ≠ '!' := by
  cases l with
  | none => exact ⟨'>', s, rfl, by decide⟩
  | some l =>
    obtain ⟨c, w, hw, hc⟩ := exists_label (hl l rfl)
    exact ⟨c, w ++ '>' :: s, by simp [Content.opening, hw], hc⟩

/-- A tag that closes itself is one node. -/
theorem step_closed {l : Label} (hl : l.Valid) (s : Text) :
    readContent.step (Nested.upTo (r + 2) (d + 2)) ()
        ⟨p, '<' :: (l.write ++ ' ' :: '/' :: '>' :: s)⟩ =
      some (.more [.mk .selfClosing p (p + 1 + l.write.length + 3) (l.nodes (p + 1))] ()
        ⟨p + 1 + l.write.length + 3, s⟩) := by
  have hread := read_label (n := Nested.upTo (r + 2) (d + 1)) (p := p) hl rfl (.close s)
  obtain ⟨c, w, hw, hc⟩ := exists_label hl
  rw [hw] at hread ⊢
  exact step_markup hc hread

/-- An opening tag is read with or without a name. -/
theorem read_opening {l : Option Label} (hl : ∀ k ∈ l, k.Valid) (hsteps : n.steps = r + 2) :
    Tag.read n ⟨p, '<' :: (Content.opening l ++ '>' :: t)⟩ =
      readElementEnd n p (l.elim [] (·.nodes (p + 1)))
        ⟨p + 1 + (Content.opening l).length + 1, t⟩ := by
  cases l with
  | none => exact read_fragment n p t
  | some l => exact read_label (hl l rfl) hsteps (.stop t)

theorem readElementEnd_of_content {ns : List Node} {next : Cursor} (start : Nat)
    (opening : List Node)
    (h : repeatStep (readContent.step n) n.steps () ⟨p, s⟩ = some (ns, (), next)) :
    readElementEnd n start opening ⟨p, s⟩ =
      some (.mk .element start next.pos (.mk .opening start p opening :: ns), next) := by
  simp [readElementEnd, readContent, h]

/-- An element is one node, with what is read behind its opening tag inside it. -/
theorem step_element {l : Option Label} (hl : ∀ k ∈ l, k.Valid) {ns : List Node} {next : Cursor}
    (h : repeatStep (readContent.step (Nested.upTo (r + 2) (d + 1))) (r + 2) ()
      ⟨p + 1 + (Content.opening l).length + 1, s⟩ = some (ns, (), next)) :
    readContent.step (Nested.upTo (r + 2) (d + 2)) ()
        ⟨p, '<' :: (Content.opening l ++ '>' :: s)⟩ =
      some (.more [.mk .element p next.pos (.mk .opening p
        (p + 1 + (Content.opening l).length + 1) (l.elim [] (·.nodes (p + 1))) :: ns)] ()
        next) := by
  have hread := read_opening (n := Nested.upTo (r + 2) (d + 1)) (p := p) (t := s) hl rfl
  rw [readElementEnd_of_content (n := Nested.upTo (r + 2) (d + 1)) p _ h] at hread
  obtain ⟨c, w, hw, hc⟩ := exists_opening hl s
  rw [hw] at hread ⊢
  exact step_markup hc hread

end Tag

namespace Content

variable {k : Content} {m : Nat}

theorem endsMarkupText_head (hk : k.Valid) (hstart : k.startsText = false) :
    ∀ c ∈ (k.write ++ '<' :: t).head?, endsMarkupText c = true := by
  cases k with
  | text run next => cases hstart
  | nil | quoted _ _ | closed _ _ | element _ _ _ =>
    intro c hc
    simp [write, Ir.quotedText] at hc
    subst hc
    rfl

/-- Content is read up to the tag that closes it, whatever nests in it. -/
theorem readContent_write (hk : k.Valid) (hnul : '\x00' ∉ k.write) (hd : k.write.length ≤ d)
    (hsteps : k.write.length < r) (hm : k.write.length < m) (hq : p + k.write.length = q)
    {tag : Node} {behind : Cursor}
    (hclose : Tag.readClosingTag r q ⟨q + 2, t⟩ = some (tag, behind)) :
    repeatStep (Tag.readContent.step (Nested.upTo r (d + 1))) m ()
      ⟨p, k.write ++ '<' :: '/' :: t⟩ = some (k.nodes p ++ [tag], (), behind) := by
  induction k generalizing p q d m tag behind t with
  | nil =>
    obtain ⟨m, rfl⟩ : ∃ e, m = e + 1 := ⟨m - 1, by omega⟩
    obtain rfl : p = q := hq
    have hskip : (⟨p, '<' :: '/' :: t⟩ : Cursor).skip 2 = ⟨p + 2, t⟩ := rfl
    refine repeatStep_done ?_
    simp [write, Tag.readContent.step, hskip, Nested.upTo, hclose, nodes]
  | text run next ih =>
    obtain ⟨hne, hrun, hstart, hvalid⟩ := hk
    simp only [write, List.length_append, List.mem_append, not_or] at hnul hd hsteps hm hq
    have hpositive := List.length_pos_of_ne_nil hne
    obtain ⟨m, rfl⟩ : ∃ e, m = e + 1 := ⟨m - 1, by omega⟩
    have hchars : ∀ c ∈ run, endsMarkupText c = false := by
      intro c hc
      have htext := hrun c hc
      have hzero : c ≠ '\x00' := by
        rintro rfl
        exact hnul.1 hc
      simp only [isTextChar, Bool.not_eq_eq_eq_not, Bool.not_true, Bool.or_eq_false_iff] at htext
      simp [endsMarkupText, htext, hzero]
    have hstep := Tag.step_text (n := Nested.upTo r (d + 1)) (p := p) hne hchars
      (endsMarkupText_head (t := '/' :: t) hvalid hstart)
    rw [write, nodes, List.append_assoc, List.append_assoc]
    exact repeatStep_more hstep
      (ih hvalid hnul.2 (by omega) (by omega) (by omega) (by omega) hclose)
  | quoted value next ih =>
    have hlength : (Ir.quotedText value).length = 1 + (Text.quote value).length + 1 := by
      simp [Ir.quotedText, Nat.add_comm 1]
    simp only [write, List.length_append, List.mem_append, not_or, hlength]
      at hnul hd hsteps hm hq
    obtain ⟨m, rfl⟩ : ∃ e, m = e + 1 := ⟨m - 1, by omega⟩
    obtain ⟨d, rfl⟩ : ∃ e, d = e + 1 := ⟨d - 1, by omega⟩
    obtain ⟨r, rfl⟩ : ∃ e, r = e + 1 := ⟨r - 1, by omega⟩
    have hstep := Tag.step_quoted (r := r) (d := d) (p := p) value (next.write ++ '<' :: '/' :: t)
    have hrest := ih (p := p + 1 + (Text.quote value).length + 1) (d := d + 1) (m := m) hk hnul.2
      (by omega) (by omega) (by omega) (by omega) hclose
    simpa only [write, nodes, List.append_assoc, List.cons_append, List.nil_append] using
      repeatStep_more hstep hrest
  | closed l next ih =>
    obtain ⟨hlabel, hvalid⟩ := hk
    have hwrite : (closed l next).write = '<' :: (l.write ++ ' ' :: '/' :: '>' :: next.write) := by
      simp [write]
    rw [hwrite] at hnul hd hsteps hm hq ⊢
    simp only [List.length_cons, List.length_append, List.mem_cons, List.mem_append, not_or]
      at hnul hd hsteps hm hq
    obtain ⟨m, rfl⟩ : ∃ e, m = e + 1 := ⟨m - 1, by omega⟩
    obtain ⟨d, rfl⟩ : ∃ e, d = e + 1 := ⟨d - 1, by omega⟩
    obtain ⟨r, rfl⟩ : ∃ e, r = e + 2 := ⟨r - 2, by omega⟩
    have hstep := Tag.step_closed (r := r) (d := d) (p := p) hlabel (next.write ++ '<' :: '/' :: t)
    have hrest := ih (p := p + 1 + l.write.length + 3) (d := d + 1) (m := m) hvalid (by tauto)
      (by omega) (by omega) (by omega) (by omega) hclose
    simpa only [nodes, List.append_assoc, List.cons_append, List.nil_append] using
      repeatStep_more hstep hrest
  | element l inner next ihinner ih =>
    obtain ⟨hlabel, hinner, hvalid⟩ := hk
    have hwrite : (element l inner next).write = '<' :: (opening l ++ '>' :: (inner.write ++
        '<' :: '/' :: (closing l ++ '>' :: next.write))) := by
      simp [write]
    rw [hwrite] at hnul hd hsteps hm hq ⊢
    simp only [List.length_cons, List.length_append, List.mem_cons, List.mem_append, not_or]
      at hnul hd hsteps hm hq
    obtain ⟨m, rfl⟩ : ∃ e, m = e + 1 := ⟨m - 1, by omega⟩
    obtain ⟨d, rfl⟩ : ∃ e, d = e + 1 := ⟨d - 1, by omega⟩
    obtain ⟨r, rfl⟩ : ∃ e, r = e + 2 := ⟨r - 2, by omega⟩
    have hinside := ihinner (p := p + 1 + (opening l).length + 1) (d := d) (m := r + 2)
      hinner (by tauto) (by omega) (by omega) (by omega) rfl
      (Tag.readClosingTag_closing (t := next.write ++ '<' :: '/' :: t) hlabel _)
    have hstep := Tag.step_element hlabel hinside
    have hrest := ih (p := p + 1 + (opening l).length + 1 + inner.write.length + 2 +
      (closing l).length + 1) (d := d + 1) (m := m) hvalid (by tauto)
      (by omega) (by omega) (by omega) (by omega) hclose
    simpa only [nodes, List.append_assoc, List.cons_append, List.nil_append] using
      repeatStep_more hstep hrest

end Content

end Offside.Markup
