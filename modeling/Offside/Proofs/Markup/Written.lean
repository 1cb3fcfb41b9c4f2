import Offside.Proofs.Markup.Content
import Offside.Proofs.Text.Lines

/-! Elements and texts are written as markup with the same elements. A text that could be taken for
anything else stands between quotes and braces, on a line of its own as well as within one. -/
namespace Offside.Markup

open Text

variable {s : Text} {ls : List Text} {a : List Ir.Skeleton} {value : Text} {n : Ir.Node}
  {ns : List Ir.Node}

theorem spells_indentation (size : Int) (level : Nat) :
    Spells (indentation size level) [] := by
  apply spells_text
  intro c hc
  obtain rfl := List.eq_of_mem_replicate hc
  decide

/-- A value that is plain needs no quotes. -/
theorem isTextChar_of_isPlain (h : Ir.isPlain value = true) :
    ∀ c ∈ value, isTextChar c = true := by
  have hchar : ∀ c, Ir.isMarkupSpecial c = false → isTextChar c = true := by
    intro c hc
    simp only [Ir.isMarkupSpecial, Bool.or_eq_false_iff] at hc
    simp [isTextChar, hc]
  intro c hc
  simp only [Ir.isPlain, Bool.and_eq_true, Bool.not_eq_true', List.any_eq_false] at h
  obtain ⟨-, hbody⟩ := h
  split at hbody
  case isTrue hlast =>
    -- Only the line feed at the end is not looked at.
    have hne : value ≠ [] := List.ne_nil_of_mem hc
    rw [beq_iff_eq, List.getLast?_eq_some_getLast hne, Option.some_inj] at hlast
    rw [← List.dropLast_concat_getLast hne, hlast] at hc
    rcases List.mem_append.mp hc with hc | hc
    · exact hchar c (by simpa using hbody c hc)
    · obtain rfl := List.mem_singleton.mp hc
      decide
  case isFalse => exact hchar c (by simpa using hbody c hc)

theorem spells_markupText (value : Text) : Spells (Ir.markupText value) [] := by
  rw [Ir.markupText]
  split
  · exact spells_nil
  · split
    · next h => exact spells_text (isTextChar_of_isPlain (Bool.and_eq_true_iff.mp h).1)
    · exact spells_quotedText value

theorem spells_inlineText (value : Text) : Spells (Ir.inlineText value) [] := by
  rw [Ir.inlineText]
  split
  · exact spells_nil
  · split
    · next h => exact spells_text (isTextChar_of_isPlain h)
    · exact spells_quotedText value

/-! ## Lines -/

theorem endLines_eq_flatMap (ls : List Text) : endLines ls = ls.flatMap (· ++ ['\n']) := by
  induction ls with
  | nil => rfl
  | cons l ls ih =>
    cases ls with
    | nil => simp [endLines, unlines, List.intercalate]
    | cons k ks =>
      rw [List.flatMap_cons, ← ih]
      simp [endLines, unlines_cons_cons]

theorem endLines_append (ls ks : List Text) :
    endLines (ls ++ ks) = endLines ls ++ endLines ks := by
  simp [endLines_eq_flatMap]

theorem endLines_singleton (l : Text) : endLines [l] = l ++ ['\n'] := by
  simp [endLines_eq_flatMap]

theorem endLines_cons (l : Text) (ls : List Text) :
    endLines (l :: ls) = l ++ '\n' :: endLines ls := by
  simp [endLines_eq_flatMap]

theorem spells_feed : Spells ['\n'] [] := spells_text (by simp [isTextChar])

theorem Spells.line (h : Spells s a) : Spells (s ++ ['\n']) a := by
  simpa using h.append spells_feed

/-- A line with a margin of its own. -/
theorem Spells.indented (h : Spells s a) (size : Int) (level : Nat) :
    Spells (endLines [indentation size level ++ s]) a := by
  rw [endLines_singleton]
  exact ((spells_indentation size level).append h).line

/-- Lines between a tag that opens and one that closes, each on a line of its own. -/
theorem Spells.nested (h : Spells (endLines ls) a) (size : Int) (level : Nat)
    {start stop : Text} {b : List Ir.Skeleton}
    (htags : ∀ s, Spells s a → Spells (start ++ s ++ stop) b) :
    Spells (endLines ((indentation size level ++ start) :: ls ++
      [indentation size level ++ stop])) b := by
  have hmargin := spells_indentation size level
  have hinner : Spells ('\n' :: endLines ls ++ indentation size level) a := by
    simpa using (spells_feed.append h).append hmargin
  have houter := (hmargin.append (htags _ hinner)).line
  rw [List.cons_append, ← List.singleton_append, endLines_append, endLines_append,
    endLines_singleton, endLines_singleton]
  simpa using houter

/-! ## Nodes -/

/-- Nodes share a line with their parent if each of them does. -/
theorem exists_inlineChild {parts : List Text} (h : (n :: ns).mapM Ir.inlineChild? = some parts) :
    ∃ part more, Ir.inlineChild? n = some part ∧ ns.mapM Ir.inlineChild? = some more ∧
      parts = part :: more := by
  rw [List.mapM_cons] at h
  obtain ⟨part, hpart, h⟩ := Option.bind_eq_some_iff.mp h
  obtain ⟨more, hmore, h⟩ := Option.bind_eq_some_iff.mp h
  exact ⟨part, more, hpart, hmore, (Option.some.inj h).symm⟩

/-- A run of texts on one line has no element in it. -/
theorem spells_inlineChildren (h : ∀ n ∈ ns, n.Static) {parts : List Text}
    (hparts : ns.mapM Ir.inlineChild? = some parts) :
    Spells parts.flatten [] ∧ Ir.Node.skeletonOf ns = [] := by
  induction ns generalizing parts with
  | nil =>
    obtain rfl : parts = [] := by simpa using hparts.symm
    exact ⟨spells_nil, rfl⟩
  | cons n ns ih =>
    obtain ⟨part, more, hpart, hmore, rfl⟩ := exists_inlineChild hparts
    obtain ⟨hspells, hskeleton⟩ := ih (fun m hm => h m (List.mem_cons_of_mem n hm)) hmore
    cases h n List.mem_cons_self with
    | element _ _ _ => cases hpart
    | @text value =>
      obtain rfl := Option.some.inj hpart
      exact ⟨(spells_inlineText value).append hspells, hskeleton⟩

theorem spells_inlineRun (h : ∀ n ∈ ns, n.Static) {run : Text}
    (hrun : Ir.inlineRun? ns = some run) : Spells run [] ∧ Ir.Node.skeletonOf ns = [] := by
  obtain ⟨parts, hparts, hrun⟩ := Option.bind_eq_some_iff.mp hrun
  split at hrun
  · cases hrun
  · obtain rfl := Option.some.inj hrun
    exact spells_inlineChildren h hparts

theorem spells_markupLinesOf {size : Int} {level : Nat}
    (h : ∀ n ∈ ns, Spells (endLines (Ir.markupLines size level n)) n.skeleton) :
    Spells (endLines (Ir.markupLinesOf size level ns)) (Ir.Node.skeletonOf ns) := by
  induction ns with
  | nil => exact spells_nil
  | cons n ns ih =>
    rw [Ir.markupLinesOf, endLines_append]
    exact (h n List.mem_cons_self).append (ih fun m hm => h m (List.mem_cons_of_mem n hm))

/-- The lines of a static node have its elements. -/
theorem spells_markupLines (h : n.Static) (size : Int) (level : Nat) :
    Spells (endLines (Ir.markupLines size level n)) n.skeleton := by
  induction h generalizing level with
  | @element tag classes children hname hclasses hchildren ih =>
    have hlabel : Label.Valid ⟨tag, classes⟩ := ⟨hname, hclasses⟩
    cases children with
    | nil =>
      rw [Ir.markupLines]
      simpa [Label.write, Ir.Node.skeleton] using (spells_closed hlabel).indented size level
    | cons k ks =>
      cases hrun : Ir.inlineRun? (k :: ks) with
      | some run =>
        obtain ⟨hspells, hskeleton⟩ := spells_inlineRun hchildren hrun
        rw [Ir.markupLines, Ir.Node.skeleton, hskeleton]
        · simpa [hrun, Label.write] using (hspells.element hlabel).indented size level
        · simp
      | none =>
        have hlines := spells_markupLinesOf fun m hm => ih m hm (level + 1)
        have hnested := hlines.nested size level fun s hs => hs.element hlabel
        rw [Ir.markupLines, Ir.Node.skeleton]
        · simpa [hrun, Label.write] using hnested
        · simp
  | @text value =>
    rw [Ir.markupLines]
    exact (spells_markupText value).indented size level

/-- Static nodes are written as markup with their elements. -/
theorem spells_writeMarkup (h : ∀ n ∈ ns, n.Static) (size : Int) :
    Spells (Ir.writeMarkup size ns) (Ir.Node.skeletonOf ns) := by
  have hunlines : ∀ {ls : List Text} {a : List Ir.Skeleton}, Spells (endLines ls) a →
      Spells (unlines ls ++ ['\n']) a := by
    intro ls a hls
    by_cases hne : ls = []
    · subst hne
      exact hls.line
    · simpa [endLines, hne] using hls
  rw [Ir.writeMarkup]
  apply hunlines
  rcases ns with _ | ⟨n, _ | ⟨m, ms⟩⟩
  · exact spells_nil
  · rw [Ir.markupDocument, Ir.Node.skeletonOf_cons, Ir.Node.skeletonOf_nil, List.append_nil]
    exact spells_markupLines (h n List.mem_cons_self) size 0
  · have hlines := spells_markupLinesOf fun k hk => spells_markupLines (h k hk) size 1
    have hfragment := hlines.nested size 0 fun s hs => hs.fragment
    have hdocument : Ir.markupDocument size (n :: m :: ms) =
        ['<', '>'] :: Ir.markupLinesOf size 1 (n :: m :: ms) ++ [['<', '/', '>']] := rfl
    rw [hdocument]
    simpa [indentation] using hfragment

end Offside.Markup
