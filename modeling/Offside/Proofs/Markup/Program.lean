import Offside.Proofs.Markup.Read

/-! Reading the program around a selection. Markup without expressions, and without characters of
code zero, is read as its tree says. -/
namespace Offside.Markup

open Text

variable {d stop r : Nat} {k : Content} {node : Node} {s : Text} {n : Nested}

/-- Content in its fragment, with what stands behind it in the program. -/
def fragmentText (k : Content) : Text := '<' :: '>' :: (k.write ++ ['<', '/', '>', ')', ';'])

def groupText (k : Content) : Text := '(' :: fragmentText k

def arrowText (k : Content) : Text := '(' :: ')' :: ' ' :: '=' :: '>' :: ' ' :: groupText k

def declaratorText (k : Content) : Text :=
  '_' :: '_' :: 'C' :: 'o' :: 'l' :: 'l' :: 'i' :: 'e' :: 'T' :: 'e' :: 'm' :: 'p' :: ' ' :: '=' ::
    ' ' :: arrowText k

theorem wrap_write (k : Content) : Selection.wrap k.write =
    'c' :: 'o' :: 'n' :: 's' :: 't' :: ' ' :: declaratorText k := rfl

theorem closes_paren (s : Text) : Closes (')' :: s) := ⟨')', s, rfl, Or.inr (Or.inl rfl)⟩

theorem closes_semicolon (s : Text) : Closes (';' :: s) := ⟨';', s, rfl, Or.inr (Or.inr rfl)⟩

/-- The fragment is read as the tree of its content says. -/
theorem markup_fragmentText (hk : k.Valid) (hnul : '\x00' ∉ k.write) (hd : k.write.length ≤ d)
    (hsteps : k.write.length ≤ r) :
    ∃ node, (Content.element none k .nil).nodes 28 = [node] ∧
      (Nested.upTo (r + 1) (d + 2)).markup ⟨28, fragmentText k⟩ =
        some (node, ⟨28 + (Content.element none k .nil).write.length, [')', ';']⟩) := by
  have hclose : Tag.readClosingTag (r + 1) (30 + k.write.length)
      ⟨30 + k.write.length + 2, ['>', ')', ';']⟩ =
        some (.mk .closing (30 + k.write.length) (30 + k.write.length + 3) [],
          ⟨30 + k.write.length + 3, [')', ';']⟩) := rfl
  have hcontent := Content.readContent_write (p := 30) (m := r + 1) hk hnul hd (by omega)
    (by omega) rfl hclose
  have hend := Tag.readElementEnd_of_content (n := Nested.upTo (r + 1) (d + 1)) 28 [] hcontent
  have hlength : 28 + (Content.element none k .nil).write.length = 30 + k.write.length + 3 := by
    simp only [Content.write, Content.opening, Content.closing, Option.elim_none,
      List.length_append, List.length_cons, List.length_nil]
    omega
  refine ⟨_, rfl, ?_⟩
  rw [hlength]
  exact hend

/-! ## Expressions around the fragment

The readers of each level are those of the level below and what they are put together with. -/

theorem expression_fragmentText
    (h : (Nested.upTo (r + 1) (d + 2)).markup ⟨28, fragmentText k⟩ =
      some (node, ⟨stop, [')', ';']⟩)) :
    (Nested.upTo (r + 1) (d + 3)).expression true ⟨28, fragmentText k⟩ =
      some (node, ⟨stop, [')', ';']⟩) := by
  refine Expression.read_of_primary (n := Nested.upTo (r + 1) (d + 2)) rfl rfl ?_
    (closes_paren _)
  have hprimary : Expression.readPrimary (Nested.upTo (r + 1) (d + 2)) true
      ⟨28, fragmentText k⟩ = ((Nested.upTo (r + 1) (d + 2)).markup ⟨28, fragmentText k⟩).or
        (Expression.readArrow (Nested.upTo (r + 1) (d + 2)) true ⟨28, fragmentText k⟩) := rfl
  rw [hprimary, h, Option.some_or]

/-- The fragment in its parentheses. They cannot hold parameters. -/
theorem expression_group
    (h : (Nested.upTo (r + 1) (d + 3)).expression true ⟨28, fragmentText k⟩ =
      some (node, ⟨stop, [')', ';']⟩)) :
    (Nested.upTo (r + 1) (d + 4)).expression true ⟨27, groupText k⟩ =
      some (.mk .group 27 (stop + 1) [node], ⟨stop + 1, [';']⟩) := by
  refine Expression.read_of_primary (n := Nested.upTo (r + 1) (d + 3)) rfl rfl ?_
    (closes_semicolon _)
  have harrow : Expression.readArrow (Nested.upTo (r + 1) (d + 3)) true
      ⟨27, groupText k⟩ = none := rfl
  have hsequence := Nested.sequence_of_expression (n := Nested.upTo (r + 1) (d + 3)) rfl h
    (closes_paren _)
  have hopen : (⟨27, groupText k⟩ : Cursor).expectChar? '(' =
      some ⟨28, fragmentText k⟩ := rfl
  have hgap : openGap ⟨28, fragmentText k⟩ = some ([], ⟨28, fragmentText k⟩) := rfl
  have htype : Expression.readTypeMark (Nested.upTo (r + 1) (d + 3)) ⟨stop, [')', ';']⟩ =
      some ⟨stop, [')', ';']⟩ := rfl
  have hclose : readClosing ')' ⟨stop, [')', ';']⟩ = some ([], ⟨stop + 1, [';']⟩) := rfl
  have hgroup : Expression.readGroup (Nested.upTo (r + 1) (d + 3))
      ⟨27, groupText k⟩ =
        some (.mk .group 27 (stop + 1) [node], ⟨stop + 1, [';']⟩) := by
    simp [Expression.readGroup, hopen, hgap, hsequence, htype, hclose]
  have hprimary : Expression.readPrimary (Nested.upTo (r + 1) (d + 3)) true
      ⟨27, groupText k⟩ =
        (Expression.readArrow (Nested.upTo (r + 1) (d + 3)) true ⟨27, groupText k⟩).or
          (Expression.readGroup (Nested.upTo (r + 1) (d + 3)) ⟨27, groupText k⟩) := rfl
  rw [hprimary, harrow, hgroup, Option.none_or]

/-- The function whose body is the group. -/
theorem expression_arrow
    (h : (Nested.upTo (r + 1) (d + 4)).expression true ⟨27, groupText k⟩ =
      some (node, ⟨stop, [';']⟩)) :
    (Nested.upTo (r + 1) (d + 5)).expression true
      ⟨21, arrowText k⟩ =
        some (.mk .arrow 21 stop [node], ⟨stop, [';']⟩) := by
  refine Expression.read_of_primary (n := Nested.upTo (r + 1) (d + 4)) rfl rfl ?_
    (closes_semicolon _)
  have hparameters : Expression.readParameters (Nested.upTo (r + 1) (d + 4))
      (Expression.readTypeParameters (Nested.upTo (r + 1) (d + 4))
        ⟨21, arrowText k⟩) =
          some ([], ⟨23, ' ' :: '=' :: '>' :: ' ' :: groupText k⟩) := rfl
  have htype : Expression.readTypeMark (Nested.upTo (r + 1) (d + 4))
      ⟨23, ' ' :: '=' :: '>' :: ' ' :: groupText k⟩ =
        some ⟨23, ' ' :: '=' :: '>' :: ' ' :: groupText k⟩ := rfl
  have hsign : Expression.signAfter? ⟨23, ' ' :: '=' :: '>' :: ' ' :: groupText k⟩ "=>" =
      some ⟨26, ' ' :: groupText k⟩ := rfl
  have hgap : openGap ⟨26, ' ' :: groupText k⟩ =
      some ([], ⟨27, groupText k⟩) := rfl
  have hbody : Expression.readArrow.body (Nested.upTo (r + 1) (d + 4)) true
      ⟨21, arrowText k⟩ []
      ⟨23, ' ' :: '=' :: '>' :: ' ' :: groupText k⟩ =
        some (.mk .arrow 21 stop [node], ⟨stop, [';']⟩) := by
    have hbrace : (groupText k).head? = some '(' := rfl
    simp [Expression.readArrow.body, hsign, hgap, hbrace, h]
  have hhead : Expression.readArrow.head (Nested.upTo (r + 1) (d + 4)) true
      ⟨21, arrowText k⟩ =
        some (.mk .arrow 21 stop [node], ⟨stop, [';']⟩) := by
    have hstarts : startsName (arrowText k) = false := rfl
    simp [Expression.readArrow.head, hstarts, hparameters, htype, hbody]
  have hprimary : Expression.readPrimary (Nested.upTo (r + 1) (d + 4)) true
      ⟨21, arrowText k⟩ =
        (Expression.readArrow (Nested.upTo (r + 1) (d + 4)) true
          ⟨21, arrowText k⟩).or
        (Expression.readGroup (Nested.upTo (r + 1) (d + 4))
          ⟨21, arrowText k⟩) := rfl
  rw [hprimary, Expression.readArrow, hhead, Option.some_or, Option.some_or]

/-! ## The statement around the expression -/

/-- The declared name with the function. -/
theorem readDeclarators_declaratorText
    (h : (Nested.upTo (r + 1) (d + 5)).expression true ⟨21, arrowText k⟩ =
      some (node, ⟨stop, [';']⟩)) :
    Program.readDeclarators (Nested.upTo (r + 1) (d + 5)) ⟨6, declaratorText k⟩ =
      some ([.mk .declarator 6 stop [.mk .identifier 6 18 [], node]], ⟨stop, [';']⟩) := by
  have hname : readName ⟨6, declaratorText k⟩ =
      some (['_', '_', 'C', 'o', 'l', 'l', 'i', 'e', 'T', 'e', 'm', 'p'],
        ⟨18, ' ' :: '=' :: ' ' :: arrowText k⟩) :=
    readName_append (c := '_') (w := ['_', 'C', 'o', 'l', 'l', 'i', 'e', 'T', 'e', 'm', 'p'])
      (by simp [isNamePart]) rfl (by simp [isNamePart, isGap])
  have hpattern : (Nested.upTo (r + 1) (d + 5)).pattern ⟨6, declaratorText k⟩ =
      some ([.mk .identifier 6 18 []], ⟨18, ' ' :: '=' :: ' ' :: arrowText k⟩) := by
    have hname' : (Nested.upTo (r + 1) (d + 5)).pattern ⟨6, declaratorText k⟩ =
        (readName ⟨6, declaratorText k⟩).bind fun r =>
          some ([Expression.nameOf ⟨6, declaratorText k⟩ r.2], r.2) := rfl
    rw [hname', hname]
    rfl
  have htype : Expression.readTypeMark (Nested.upTo (r + 1) (d + 5))
      ⟨18, ' ' :: '=' :: ' ' :: arrowText k⟩ = some ⟨18, ' ' :: '=' :: ' ' :: arrowText k⟩ := rfl
  have hsign : Expression.signAfter? ⟨18, ' ' :: '=' :: ' ' :: arrowText k⟩ "=" =
      some ⟨20, ' ' :: arrowText k⟩ := rfl
  have hgap : skipOpenGap ⟨20, ' ' :: arrowText k⟩ = ⟨21, arrowText k⟩ := rfl
  have hend : repeatStep (Program.readDeclarators.step (Nested.upTo (r + 1) (d + 5)))
      (Nested.upTo (r + 1) (d + 5)).steps () ⟨stop, [';']⟩ = some ([], (), ⟨stop, [';']⟩) := rfl
  simp [Program.readDeclarators, Program.readDeclarator, hpattern, htype, Expression.readDefault,
    hsign, hgap, h, hend]

theorem readStatement_wrap
    (h : Program.readDeclarators n ⟨6, declaratorText k⟩ = some ([node], ⟨stop, [';']⟩)) :
    Program.readStatement n ⟨0, Selection.wrap k.write⟩ = some ([node], ⟨stop + 1, []⟩) := by
  have hword : wordAt ⟨0, Selection.wrap k.write⟩ = ['c', 'o', 'n', 's', 't'] := rfl
  have hhead : (Selection.wrap k.write).head? = some 'c' := rfl
  have hdeclaration : Program.declarationWords.contains ['c', 'o', 'n', 's', 't'] = true := rfl
  have hgap : skipGap ((⟨0, Selection.wrap k.write⟩ : Cursor).skip
      ['c', 'o', 'n', 's', 't'].length) = ⟨6, declaratorText k⟩ := rfl
  simp only [Program.readStatement, hword, hhead, hdeclaration, hgap, h]
  rfl

/-- A program of one statement. -/
theorem read?_of_statement {c : Char} {ns : List Node}
    (hgap : openGap ⟨0, c :: s⟩ = some ([], ⟨0, c :: s⟩))
    (h : Program.readStatement (Nested.ofText (c :: s)) ⟨0, c :: s⟩ = some (ns, ⟨stop, []⟩)) :
    Program.read? (c :: s) = some (.mk .program 0 stop ns) := by
  have hstep : Program.read?.step (Nested.ofText (c :: s)) () ⟨0, c :: s⟩ =
      some (.more ns () ⟨stop, []⟩) := by
    simp [Program.read?.step, hgap, h]
  have hend : Program.read?.step (Nested.ofText (c :: s)) () ⟨stop, []⟩ =
      some (.done [] () ⟨stop, []⟩) := rfl
  have hsteps : (Nested.ofText (c :: s)).steps = s.length + 1 + 1 := rfl
  have hread := repeatStep_more (r := s.length + 1) hstep (repeatStep_done hend)
  rw [Program.read?, hsteps, Cursor.ofText, hread, List.append_nil]
  rfl

/-- Markup without expressions is read as its tree says. -/
theorem read?_wrap (hk : k.Valid) (hnul : '\x00' ∉ k.write) :
    Program.read? (Selection.wrap k.write) = some k.program := by
  have hlength : (Selection.wrap k.write).length = k.write.length + 35 := by
    rw [wrap_write, declaratorText, arrowText, groupText, fragmentText]
    simp
  have hof : Nested.ofText (Selection.wrap k.write) =
      Nested.upTo (k.write.length + 35 + 1) (k.write.length + 31 + 5) := by
    rw [Nested.ofText, hlength]
  obtain ⟨node, hnodes, hmarkup⟩ := markup_fragmentText (d := k.write.length + 31)
    (r := k.write.length + 35) hk hnul (by omega) (by omega)
  have harrow := expression_arrow (expression_group (expression_fragmentText hmarkup))
  have hstatement := readStatement_wrap (readDeclarators_declaratorText harrow)
  rw [← hof, wrap_write] at hstatement
  rw [wrap_write, read?_of_statement rfl hstatement, Content.program, hnodes]

end Offside.Markup
