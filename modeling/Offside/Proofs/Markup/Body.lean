import Offside.Proofs.Ir.Image
import Offside.Proofs.Markup.Grammar

/-! The body of a branch, which stands between parentheses. It is one expression that shows the
nodes of the branch if there are none or if there is one element. Anything else stands there as it
stands between tags. -/
namespace Offside.Markup

open Text Ir

variable {size : Int} {level : Nat} {n : Ir.Node} {ns : List Ir.Node} {b : Ir.Branch Ir.Node}
  {bs : List (Ir.Branch Ir.Node)} {g s t v : Text}

/-! ## Blanks -/

theorem blanks_indentation (size : Int) (level : Nat) : Blanks (indentation size level) :=
  fun x hx => Or.inr (isLineBlank_of_mem_indentation size level x hx)

theorem blanks_cons (hg : Blanks g) : Blanks ('\n' :: g) :=
  List.forall_mem_cons.mpr ⟨Or.inl rfl, hg⟩

theorem gap_indentation (size : Int) (level : Nat) : Gap ('\n' :: indentation size level) :=
  ⟨blanks_cons (blanks_indentation size level), '\n', List.mem_cons_self, rfl⟩

/-! ## Branches in nodes -/

inductive HasBranch (b : Ir.Branch Ir.Node) : Ir.Node → Prop
  | here {bs : List (Ir.Branch Ir.Node)} : b ∈ bs → HasBranch b (.conditional bs)
  | element {tag : Text} {classes : List Text} {attributes : List Attribute}
      {children : List Ir.Node} {n : Ir.Node} : n ∈ children → HasBranch b n →
      HasBranch b (.element tag classes attributes children)
  | fragment {children : List Ir.Node} {n : Ir.Node} : n ∈ children → HasBranch b n →
      HasBranch b (.fragment children)
  | branch {bs : List (Ir.Branch Ir.Node)} {b' : Ir.Branch Ir.Node} {n : Ir.Node} : b' ∈ bs →
      n ∈ b'.children → HasBranch b n → HasBranch b (.conditional bs)

theorem HasBranch.fromTemplate (h : HasBranch b n) (hn : n.FromTemplate) :
    ∀ k ∈ b.children, k.FromTemplate := by
  induction h with
  | here hb =>
    cases hn with
    | conditional _ _ _ _ hchildren => exact hchildren _ hb
  | element hk _ ih =>
    cases hn with
    | element _ _ hchildren => exact ih (hchildren _ hk)
  | fragment _ _ _ => cases hn
  | branch hb hk _ ih =>
    cases hn with
    | conditional _ _ _ _ hchildren => exact ih (hchildren _ hb _ hk)

/-- Whether there is nothing in a branch, or just an element. -/
def isSingle (b : Ir.Branch Ir.Node) : Bool :=
  match b.children with
  | [] | [.element _ _ _ _] => true
  | _ => false

/-- What is written between the parentheses of a branch whose closing one has this level. -/
def bodyText (size : Int) (level : Nat) (b : Ir.Branch Ir.Node) : Text :=
  '\n' :: (endLines (bodyLines size (level + 1) b) ++ indentation size level)

/-! ## Nodes on lines of their own -/

theorem isRaw_laidOut (n : Ir.Node) : isRaw (laidOut n) = isRaw n := by
  cases n <;> rfl

theorem spaced_cons_eq (n : Ir.Node) (ns : List Ir.Node) :
    spaced (n :: ns) = n :: spaceIf (isRaw n && ns.head?.any isRaw) (spaced ns) := by
  cases ns with
  | nil => simp [spaced, spaceIf]
  | cons m ns =>
    rw [spaced, List.head?_cons, Option.any_some, spaceIf]
    split <;> rfl

/-- The lines of a node are its margin and a text that shows it. -/
def Shows (size : Int) (n : Ir.Node) : Prop :=
  ∀ level, ∃ t, endLines (markupLines size level n) = indentation size level ++ t ++ ['\n'] ∧
    ChildShows (isRaw n) t (laidOut n)

/-- The lines of nodes that are shown show the nodes in a row. -/
theorem linesShow_markupLinesOf (h : ∀ n ∈ ns, Shows size n) (bare : Bool) (level : Nat) :
    LinesShow bare
      ('\n' :: (endLines (markupLinesOf size (level + 1) ns) ++ indentation size level))
      (spaceIf (bare && ns.head?.any isRaw) (spaced (laidOutList ns))) := by
  induction ns generalizing bare with
  | nil =>
    have hempty : spaceIf (bare && ([] : List Ir.Node).head?.any isRaw) (spaced (laidOutList [])) =
        [] := by
      simp [spaceIf, laidOutList, spaced]
    rw [hempty]
    exact .nil (gap_indentation size level)
  | cons n ns ih =>
    obtain ⟨hn, hns⟩ := List.forall_mem_cons.mp h
    obtain ⟨t, hlines, hshows⟩ := hn (level + 1)
    have hrest := ih hns (isRaw n)
    have hnodes : spaced (laidOutList (n :: ns)) =
        laidOut n :: spaceIf (isRaw n && ns.head?.any isRaw) (spaced (laidOutList ns)) := by
      rw [laidOutList, spaced_cons_eq, isRaw_laidOut]
      cases ns with
      | nil => rfl
      | cons m ns => simp [laidOutList, isRaw_laidOut]
    have hcond : (bare && (n :: ns).head?.any isRaw) = (bare && isRaw n) := rfl
    have hwrite : '\n' :: (endLines (markupLinesOf size (level + 1) (n :: ns)) ++
        indentation size level) = ('\n' :: indentation size (level + 1)) ++ t ++
        ('\n' :: (endLines (markupLinesOf size (level + 1) ns) ++ indentation size level)) := by
      rw [markupLinesOf, endLines_append, hlines]
      simp
    rw [hwrite, hnodes, hcond]
    exact .cons (gap_indentation size (level + 1)) hshows hrest

/-! ## Elements -/

/-- Children that share a line with their parent are shown on it. -/
theorem lineShows_inlineChildren (h : ∀ n ∈ ns, n.FromTemplate) {parts : List Text}
    (hparts : ns.mapM inlineChild? = some parts) : LineShows parts.flatten ns := by
  induction ns generalizing parts with
  | nil =>
    obtain rfl : parts = [] := by simpa using hparts.symm
    exact .nil
  | cons n ns ih =>
    obtain ⟨hn, hns⟩ := List.forall_mem_cons.mp h
    obtain ⟨part, more, hpart, hmore, rfl⟩ := exists_inlineChild hparts
    rw [List.flatten_cons]
    cases hn with
    | element _ _ _ => cases hpart
    | conditional _ _ _ _ _ => cases hpart
    | expression =>
      obtain rfl := Option.some.inj hpart
      exact .expression (ih hns hmore)
    | text hne hline =>
      obtain rfl := Option.some.inj hpart
      rw [inlineText, if_neg (by simpa using hne)]
      split
      · next hplain => exact .text (isTextChar_of_isPlain hplain) hline (ih hns hmore)
      · exact .quoted (ih hns hmore)

theorem shows_text (hne : v ≠ []) (hline : Unbroken v) : Shows size (.text v) := by
  intro level
  refine ⟨markupText v, by rw [markupLines, endLines_singleton], ?_⟩
  rw [laidOut]
  cases hraw : isRaw (.text v) with
  | true =>
    obtain ⟨htrimmed, -⟩ := trimmed_of_isRaw (.text hne hline) hraw
    obtain ⟨hwrite, hchars⟩ := markupText_of_isRaw (.text hne hline) hraw
    rw [hwrite]
    exact .text hchars hline hne (trimFront_of_trimmed htrimmed) (trimBack_of_trimmed htrimmed)
  | false =>
    rw [markupText_of_not_isRaw hne hraw]
    exact .quoted

/-- An element is shown if its children are. -/
theorem shows_element {l : Label} (hl : l.Valid) (h : ∀ n ∈ ns, n.FromTemplate)
    (hshows : ∀ n ∈ ns, Shows size n) : Shows size (.element l.name l.classes [] ns) := by
  intro level
  cases ns with
  | nil =>
    refine ⟨'<' :: l.write ++ [' ', '/', '>'], ?_, ?_⟩
    · rw [markupLines, endLines_singleton]
      simp [Label.write]
    · exact .element (.closed hl)
  | cons n ns =>
    cases hrun : inlineRun? (n :: ns) with
    | some run =>
      obtain ⟨parts, hparts, hsome⟩ := Option.bind_eq_some_iff.mp hrun
      obtain rfl : parts.flatten = run := by
        split at hsome
        · cases hsome
        · exact Option.some.inj hsome
      refine ⟨'<' :: l.write ++ ['>'] ++ parts.flatten ++ (['<', '/'] ++ l.name ++ ['>']), ?_, ?_⟩
      · rw [markupLines, hrun, endLines_singleton]
        · simp [Label.write]
        · simp
      · have hlaid : laidOut (.element l.name l.classes [] (n :: ns)) =
            .element l.name l.classes [] (n :: ns) := by
          simp [laidOut, hrun]
        rw [hlaid]
        exact .element (.around hl (.line (lineShows_inlineChildren h hparts)))
    | none =>
      have hlines := linesShow_markupLinesOf hshows false level
      refine ⟨'<' :: l.write ++ ['>'] ++
        ('\n' :: (endLines (markupLinesOf size (level + 1) (n :: ns)) ++ indentation size level)) ++
        (['<', '/'] ++ l.name ++ ['>']), ?_, ?_⟩
      · rw [markupLines, hrun]
        · simp [endLines_eq_flatMap, Label.write]
        · simp
      · have hlaid : laidOut (.element l.name l.classes [] (n :: ns)) =
            .element l.name l.classes [] (spaced (laidOutList (n :: ns))) := by
          simp [laidOut, hrun]
        rw [hlaid]
        exact .element (.around hl (.lines (by simpa [spaceIf] using hlines)))

/-! ## Branches -/

/-- The body of a branch is shown if the nodes in it are and it is a single thing. -/
theorem bodyShows_bodyText (h : ∀ n ∈ b.children, Shows size n) (hsingle : isSingle b = true)
    (level : Nat) :
    BodyShows (bodyText size level b) (laidOutList b.children) := by
  have hgap := blanks_cons (blanks_indentation size (level + 1))
  have hend := blanks_cons (blanks_indentation size level)
  obtain ⟨test, children⟩ := b
  rw [isSingle.eq_def] at hsingle
  split at hsingle
  · next hnil =>
    obtain rfl : children = [] := hnil
    have hnull := BodyShows.nothing hgap hend
    rw [bodyText, bodyLines, endLines_singleton]
    simpa [laidOutList] using hnull
  · next hone =>
    obtain rfl : children = [_] := hone
    obtain ⟨t, hlines, hshows⟩ := h _ List.mem_cons_self (level + 1)
    cases hshows with
    | element helement =>
      have hbody := BodyShows.element hgap hend helement
      rw [bodyText, bodyLines, markupLinesOf, List.append_nil, hlines]
      simpa [laidOutList] using hbody
  · cases hsingle

theorem guard?_of_ne_nil (h : ∀ t ∈ b.test, t ≠ []) : b.guard? = b.test := by
  rw [Branch.guard?]
  cases htest : b.test with
  | none => rfl
  | some t =>
    have hne := h t htest
    simp [Option.filter, hne]

/-- The code behind a branch with a test. -/
theorem otherwiseShows_choiceLines (hne : ∀ b ∈ bs, ∀ t ∈ b.test, t ≠ [])
    (hlast : ∀ b ∈ bs.dropLast, b.test ≠ none)
    (h : ∀ b ∈ bs, BodyShows (bodyText size (level + 1) b) (laidOutList b.children)) :
    OtherwiseShows
      ('\n' :: (endLines (if bs.isEmpty then
          [indentation size (level + 1) ++ [':', ' ', 'n', 'u', 'l', 'l']]
        else choiceLines size level true bs) ++ indentation size level))
      (laidOutBranches bs) := by
  have hgap := blanks_cons (blanks_indentation size (level + 1))
  have hend := blanks_cons (blanks_indentation size level)
  induction bs with
  | nil =>
    have hnull := OtherwiseShows.nothing hgap hend
    simpa [endLines_singleton, laidOutBranches] using hnull
  | cons b bs ih =>
    obtain ⟨hb, hbs⟩ := List.forall_mem_cons.mp h
    have hguard := guard?_of_ne_nil (hne b List.mem_cons_self)
    obtain ⟨test, children⟩ := b
    cases test with
    | none =>
      obtain rfl : bs = [] := by
        cases bs with
        | nil => rfl
        | cons b' bs => exact (hlast ⟨none, children⟩ (by simp) rfl).elim
      have hlastShows := OtherwiseShows.last hgap hend hb
      simp only [List.isEmpty_cons, Bool.false_eq_true, if_false, choiceLines, hguard]
      simpa [endLines_eq_flatMap, bodyText, parenthesized, laidOutBranches, laidOutBranch]
        using hlastShows
    | some test =>
      have hrest := ih (fun b' hb' => hne b' (List.mem_cons_of_mem _ hb'))
        (fun b' hb' => hlast b' (by
          cases bs with
          | nil => cases hb'
          | cons _ _ => exact List.mem_cons_of_mem _ hb')) hbs
      have hchosen : OtherwiseShows _ (⟨some test, laidOutList children⟩ :: laidOutBranches bs) :=
        .chosen hgap hb hrest
      simp only [List.isEmpty_cons, Bool.false_eq_true, if_false, choiceLines, hguard]
      simpa [endLines_eq_flatMap, bodyText, parenthesized, laidOutBranches, laidOutBranch]
        using hchosen

/-- A conditional is shown if the bodies of its branches are. -/
theorem shows_conditional (hbranches : bs ≠ []) (hne : ∀ b ∈ bs, ∀ t ∈ b.test, t ≠ [])
    (hfirst : ∀ b ∈ bs.head?, b.test ≠ none) (hlast : ∀ b ∈ bs.dropLast, b.test ≠ none)
    (h : ∀ b ∈ bs, ∀ level, BodyShows (bodyText size level b) (laidOutList b.children)) :
    Shows size (.conditional bs) := by
  intro level
  obtain ⟨b, rest, rfl⟩ := List.exists_cons_of_ne_nil hbranches
  obtain ⟨hb, hrest⟩ := List.forall_mem_cons.mp h
  have hguard := guard?_of_ne_nil (hne b List.mem_cons_self)
  obtain ⟨test, children⟩ := b
  obtain ⟨test, rfl⟩ := Option.ne_none_iff_exists'.mp (hfirst _ rfl)
  cases rest with
  | nil =>
    refine ⟨braced (test ++ [' ', '&', '&', ' '] ++
      parenthesized (bodyText size level ⟨some test, children⟩)), ?_, ?_⟩
    · rw [markupLines, onlyGuard?, hguard]
      · simp [endLines_eq_flatMap, firstBodyLines, bodyText, parenthesized, braced]
      · simp
    · exact .conditional (.guarded (hb level))
  | cons b' rest =>
    have hotherwise := otherwiseShows_choiceLines (fun k hk => hne k (List.mem_cons_of_mem _ hk))
      (fun k hk => hlast k (List.mem_cons_of_mem _ hk)) fun k hk => hrest k hk (level + 1)
    have hgap := blanks_cons (blanks_indentation size (level + 1))
    have hcode : CodeShows _ (⟨some test, laidOutList children⟩ :: laidOutBranches (b' :: rest)) :=
      .chosen hgap (hb (level + 1)) hotherwise
    refine ⟨_, ?_, .conditional hcode⟩
    rw [markupLines_choices (by simp) rfl]
    simp [endLines_eq_flatMap, choiceLines, hguard, bodyText, parenthesized, braced]

/-- Nodes whose branches all have nothing or just an element in them are shown by their lines. -/
theorem shows_of_isSingle (h : n.FromTemplate) (hsingle : ∀ b, HasBranch b n → isSingle b = true)
    (size : Int) :
    Shows size n := by
  induction h with
  | element hname hclasses hchildren ih =>
    exact shows_element (l := ⟨_, _⟩) ⟨hname, hclasses⟩ hchildren fun k hk =>
      ih k hk fun b hb => hsingle b (.element hk hb)
  | text hne hline => exact shows_text hne hline
  | expression =>
    exact fun level => ⟨braced _, by rw [markupLines, endLines_singleton], .expression⟩
  | conditional hbranches hne hfirst hlast _ ih =>
    refine shows_conditional hbranches hne hfirst hlast fun b hb => ?_
    refine bodyShows_bodyText (fun k hk => ?_) (hsingle b (.here hb))
    exact ih b hb k hk fun b' hb' => hsingle b' (.branch hb hk hb')

/-! ## Bodies that are no expression of their own -/

/-- The lines of a node start neither with a blank nor with a fragment. -/
theorem exists_start (h : n.FromTemplate) (size : Int) (level : Nat) : ∃ c t,
    endLines (markupLines size level n) = indentation size level ++ c :: t ∧
      isBreak c = false ∧ isLineBlank c = false ∧ (c = '<' → ∃ d u, t = d :: u ∧ d ≠ '>') := by
  have hbrace : ∀ (t : Text) (rest : List Text),
      markupLines size level n = (indentation size level ++ '{' :: t) :: rest → ∃ c t,
      endLines (markupLines size level n) = indentation size level ++ c :: t ∧
        isBreak c = false ∧ isLineBlank c = false ∧ (c = '<' → ∃ d u, t = d :: u ∧ d ≠ '>') := by
    intro t rest hlines
    refine ⟨'{', t ++ '\n' :: endLines rest, ?_, rfl, rfl, by simp⟩
    rw [hlines, endLines_cons]
    simp
  cases h with
  | @element tag classes children hname _ _ =>
    obtain ⟨more, rest, hlines⟩ :=
      exists_markupLines_element size level tag classes [] children
    obtain ⟨d, w, rfl, hd⟩ := hname.starts
    refine ⟨'<', d :: (w ++ more ++ '\n' :: endLines rest), ?_, rfl, rfl,
      fun _ => ⟨d, _, rfl, ne_of_isAlpha hd rfl⟩⟩
    rw [hlines, endLines_cons]
    simp
  | @text v hne hline =>
    cases hraw : isRaw (.text v) with
    | false =>
      refine hbrace (quote v ++ ['}']) [] ?_
      rw [markupLines, markupText_of_not_isRaw hne hraw]
      rfl
    | true =>
      obtain ⟨htrimmed, -⟩ := trimmed_of_isRaw (.text hne hline) hraw
      obtain ⟨hwrite, hchars⟩ := markupText_of_isRaw (.text hne hline) hraw
      obtain ⟨c, w, rfl⟩ := List.exists_cons_of_ne_nil hne
      have hc : c ≠ '<' := by
        rintro rfl
        exact absurd (hchars '<' List.mem_cons_self) (by decide)
      refine ⟨c, w ++ ['\n'], ?_, isBreak_of_unbroken hline c List.mem_cons_self,
        isLineBlank_of_solid (htrimmed.starts c rfl), fun heq => (hc heq).elim⟩
      rw [markupLines, hwrite, endLines_singleton]
      simp
  | @expression e =>
    refine hbrace (e ++ ['}']) [] ?_
    rw [markupLines]
    rfl
  | @conditional branches hne _ _ _ _ =>
    cases honly : onlyGuard? branches with
    | none => exact hbrace _ _ (markupLines_choices hne honly size level)
    | some test =>
      refine hbrace (test ++ [' ', '&', '&', ' ', '('])
        (firstBodyLines size (level + 1) branches ++ [indentation size level ++ [')', '}']]) ?_
      rw [markupLines, honly]
      · simp
      · exact hne

/-- What comes first behind blanks. -/
theorem eq_of_blanks_append {a g : Text} {c d : Char} (ha : Blanks a) (hg : Blanks g)
    (hc : isBreak c = false ∧ isLineBlank c = false)
    (hd : isBreak d = false ∧ isLineBlank d = false)
    (h : a ++ c :: s = g ++ d :: t) : c = d ∧ s = t := by
  have hdrop : ∀ {g t : Text} {d : Char}, Blanks g → isBreak d = false ∧ isLineBlank d = false →
      (g ++ d :: t).dropWhile (fun x => isBreak x || isLineBlank x) = d :: t := by
    intro g t d hg hd
    rw [List.dropWhile_append_of_pos (by simpa [Blanks] using hg)]
    simp [hd]
  have heq := congrArg (List.dropWhile fun x => isBreak x || isLineBlank x) h
  rw [hdrop ha hc, hdrop hg hd] at heq
  exact List.cons.inj heq

/-- A body that is one expression for its nodes has nothing or just an element in it. -/
theorem isSingle_of_bodyShows (h : ∀ k ∈ b.children, k.FromTemplate)
    (hshows : BodyShows (bodyText size level b) (laidOutList b.children)) :
    isSingle b = true := by
  obtain ⟨test, children⟩ := b
  generalize htext : bodyText size level ⟨test, children⟩ = s at hshows
  generalize hnodes : laidOutList children = ns at hshows
  cases children with
  | nil => rfl
  | cons n rest =>
    cases hshows with
    | nothing _ _ => cases hnodes
    | element _ _ helement =>
      obtain ⟨hn, hrest⟩ := List.cons.inj hnodes
      obtain rfl : rest = [] := by
        cases rest with
        | nil => rfl
        | cons _ _ => cases hrest
      cases n with
      | element _ _ _ _ => rfl
      | text _ | expression _ | fragment _ | conditional _ | foreign =>
        subst hn
        cases helement
    | @fragment g h' s _ hg _ _ =>
      -- the body would start with the tag of a fragment, but no first node is written so
      obtain ⟨c, t, hlines, hbreak, hblank, htag⟩ := exists_start (h n List.mem_cons_self) size
        (level + 1)
      have hwrite : bodyText size level ⟨test, n :: rest⟩ =
          ('\n' :: indentation size (level + 1)) ++ c :: (t ++
            (endLines (markupLinesOf size (level + 1) rest) ++ indentation size level)) := by
        rw [bodyText, bodyLines, endLines_append, hlines]
        simp
      rw [hwrite, List.append_assoc] at htext
      obtain ⟨hc, htail⟩ := eq_of_blanks_append
        (blanks_cons (blanks_indentation size (level + 1))) hg ⟨hbreak, hblank⟩ ⟨rfl, rfl⟩ htext
      obtain ⟨d, u, rfl, hd⟩ := htag hc
      exact (hd (List.cons.inj htail).1).elim

/-! ## Where the bodies stand -/

theorem inlineChild?_of_hasBranch (h : HasBranch b n) : inlineChild? n = none := by
  cases h <;> rfl

/-- A branch stands in a node between the parentheses of its lines. -/
theorem exists_infix_of_hasBranch (h : HasBranch b n) (size : Int) (level : Nat) :
    ∃ level' front back, bracketed size level' b front back <:+: markupLines size level n := by
  induction h generalizing level with
  | here hb => exact exists_infix_body hb size level
  | element hk hbranch ih =>
    obtain ⟨level', front, back, hwithin⟩ := ih (level + 1)
    exact ⟨level', front, back, hwithin.trans
      (infix_element hk (inlineChild?_of_hasBranch hbranch) size level _ _ _)⟩
  | @fragment children k hk _ ih =>
    obtain ⟨level', front, back, hwithin⟩ := ih (level + 1)
    refine ⟨level', front, back, hwithin.trans ?_⟩
    rw [markupLines]
    · exact (infix_markupLinesOf hk size (level + 1)).trans ⟨[_], [_], rfl⟩
    · exact List.ne_nil_of_mem hk
  | branch hb hk _ ih =>
    obtain ⟨outer, front, back, hbody⟩ := exists_infix_body hb size level
    obtain ⟨level', front', back', hwithin⟩ := ih (outer + 1)
    exact ⟨level', front', back', ((hwithin.trans (infix_bodyLines hk size (outer + 1))).trans
      (infix_bracketed size outer _ front back)).trans hbody⟩

theorem infix_endLines {ls ks : List Text} (h : ls <:+: ks) : endLines ls <:+: endLines ks := by
  obtain ⟨before, after, rfl⟩ := h
  exact ⟨endLines before, endLines after, by simp [endLines_append]⟩

theorem infix_endLines_bracketed (size : Int) (level : Nat) (b : Ir.Branch Ir.Node)
    (front back : Text) :
    parenthesized (bodyText size level b) <:+: endLines (bracketed size level b front back) := by
  refine ⟨front, back ++ ['\n'], ?_⟩
  simp [bracketed, parenthesized, bodyText, endLines_eq_flatMap]

theorem infix_writeMarkup (hn : n ∈ ns) (hb : HasBranch b n) (size : Int) :
    ∃ level, parenthesized (bodyText size level b) <:+: writeMarkup size ns := by
  obtain ⟨outer, hdocument⟩ := exists_infix_document hn size
  obtain ⟨level, front, back, hwithin⟩ := exists_infix_of_hasBranch hb size outer
  have hlines := hwithin.trans hdocument
  have hne : markupDocument size ns ≠ [] := by
    intro hnil
    rw [hnil] at hlines
    exact absurd (List.infix_nil.mp hlines) (by simp [bracketed])
  have hwrite : writeMarkup size ns = endLines (markupDocument size ns) := by
    simp [writeMarkup, endLines, hne]
  rw [hwrite]
  exact ⟨level, (infix_endLines_bracketed size level b front back).trans (infix_endLines hlines)⟩

theorem output_of_isSuccess {target : Option Target} {o : ExportOptions}
    (h : (exportTemplate s target o).isSuccess = true) : (exportTemplate s target o).output =
      writeMarkup o.indentSize (ofTemplate (Template.read s).template) := by
  have herrors : Diagnostic.errors (Template.read s).diagnostics = [] := by
    cases hds : Diagnostic.errors (Template.read s).diagnostics with
    | nil => rfl
    | cons d ds =>
      rw [exportTemplate, hds] at h
      cases h
  rw [exportTemplate, herrors]
  rfl

/-- Every branch of a template that is exported has its body between parentheses in the markup. If
the body is one expression that shows the nodes of the branch, there are none or there is just an
element. And it is such an expression if this holds for the branch and for all branches in it. -/
theorem bodyShows_exportTemplate (target : Option Target) (o : ExportOptions)
    (hsuccess : (exportTemplate s target o).isSuccess = true)
    (hb : ∃ n ∈ ofTemplate (Template.read s).template, HasBranch b n) :
    (∃ level,
        parenthesized (bodyText o.indentSize level b) <:+: (exportTemplate s target o).output) ∧
      (∀ level, BodyShows (bodyText o.indentSize level b) (laidOutList b.children) →
        isSingle b = true) ∧
      (isSingle b = true → (∀ b', (∃ k ∈ b.children, HasBranch b' k) → isSingle b' = true) →
        ∀ level, BodyShows (bodyText o.indentSize level b) (laidOutList b.children)) := by
  obtain ⟨n, hn, hbranch⟩ := hb
  have hchildren : ∀ k ∈ b.children, k.FromTemplate :=
    hbranch.fromTemplate (fromTemplate_ofTemplate s n hn)
  refine ⟨?_, fun level => isSingle_of_bodyShows hchildren, fun hsingle hinner level => ?_⟩
  · rw [output_of_isSuccess hsuccess]
    exact infix_writeMarkup hn hbranch o.indentSize
  · refine bodyShows_bodyText (fun k hk => ?_) hsingle level
    exact shows_of_isSingle (hchildren k hk) (fun b' hb' => hinner b' ⟨k, hk, hb'⟩) o.indentSize

/-- The first of the branches that come first. -/
def firstBranch? : List Ir.Node → Option (Ir.Branch Ir.Node)
  | .conditional (b :: _) :: _ => some b
  | _ => none

theorem hasBranch_of_firstBranch? (h : firstBranch? ns = some b) : ∃ n ∈ ns, HasBranch b n := by
  rw [firstBranch?.eq_def] at h
  split at h
  · obtain rfl := Option.some.inj h
    exact ⟨_, List.mem_cons_self, .here List.mem_cons_self⟩
  · cases h

/-- A text and another branch in the element of a branch. -/
def nestedBranch : Text := "@if (a)\n  div\n    | Hi\n    @if (b)\n      p\n".toList

/-- Whether there is an element in a branch, with a text and a branch that has an element in it. -/
def isNested (b : Ir.Branch Ir.Node) : Bool :=
  match b.children with
  | [.element _ _ _ [.text _, .conditional [⟨_, [.element _ _ _ []]⟩]]] => true
  | _ => false

/-- What is nested is a single thing. -/
theorem isSingle_of_isNested (h : isNested b = true) : isSingle b = true ∧
    ∀ b', (∃ k ∈ b.children, HasBranch b' k) → isSingle b' = true := by
  rw [isNested.eq_def] at h
  split at h
  · next hchildren =>
    refine ⟨by rw [isSingle, hchildren], fun b' hb' => ?_⟩
    rw [hchildren] at hb'
    obtain ⟨k, hk, hbranch⟩ := hb'
    obtain rfl := List.mem_singleton.mp hk
    cases hbranch with
    | element hmem hinner =>
      rcases List.mem_cons.mp hmem with rfl | hmem
      · cases hinner
      · obtain rfl := List.mem_singleton.mp hmem
        cases hinner with
        | here hb =>
          obtain rfl := List.mem_singleton.mp hb
          rfl
        | branch hb hk hdeeper =>
          obtain rfl := List.mem_singleton.mp hb
          obtain rfl := List.mem_singleton.mp hk
          cases hdeeper with
          | element hmem _ => cases hmem
  · cases h

theorem bodyShows_exportTemplate_nestedBranch :
    ∃ b, firstBranch? (ofTemplate (Template.read nestedBranch).template) = some b ∧
      b.test = some ['a'] ∧ ∀ level, BodyShows (bodyText 2 level b) (laidOutList b.children) := by
  have htest : (firstBranch? (ofTemplate (Template.read nestedBranch).template)).map (·.test) =
      some (some ['a']) := by
    decide +kernel
  have hsuccess : (exportTemplate nestedBranch none {}).isSuccess = true := by decide +kernel
  have hnested : (firstBranch? (ofTemplate (Template.read nestedBranch).template)).all isNested =
      true := by
    decide +kernel
  obtain ⟨b, hb, hbtest⟩ := Option.map_eq_some_iff.mp htest
  rw [hb, Option.all_some] at hnested
  obtain ⟨hself, hinner⟩ := isSingle_of_isNested hnested
  exact ⟨b, hb, hbtest, (bodyShows_exportTemplate none {} hsuccess
    (hasBranch_of_firstBranch? hb)).2.2 hself hinner⟩

/-- A text alone in a branch. -/
def textBranch : Text := "@if (a)\n  | Hello\n".toList

/-- The text stands between the parentheses as it is, where it is the name of something else. -/
theorem not_bodyShows_textBranch :
    (exportTemplate textBranch none {}).output = "\x7ba && (\n  Hello\n)\x7d\n".toList ∧
      ∃ b, firstBranch? (ofTemplate (Template.read textBranch).template) = some b ∧
        bodyText 2 0 b = "\n  Hello\n".toList ∧
        ¬ BodyShows (bodyText 2 0 b) (laidOutList b.children) := by
  have htext : (firstBranch? (ofTemplate (Template.read textBranch).template)).map
      (fun b => (bodyText 2 0 b, isSingle b)) = some ("\n  Hello\n".toList, false) := by
    decide +kernel
  obtain ⟨b, hb, hpair⟩ := Option.map_eq_some_iff.mp htext
  obtain ⟨n, hn, hbranch⟩ := hasBranch_of_firstBranch? hb
  refine ⟨by decide +kernel, b, hb, congrArg Prod.fst hpair, fun hshows => ?_⟩
  have hsingle := isSingle_of_bodyShows
    (hbranch.fromTemplate (fromTemplate_ofTemplate textBranch n hn)) hshows
  exact absurd (hsingle.symm.trans (congrArg Prod.snd hpair)) (by decide)

end Offside.Markup
