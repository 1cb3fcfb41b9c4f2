import Offside.Proofs.Diagnostic
import Offside.Proofs.Template.Margin
import Offside.Template.Format

/-! Putting the white space of lines in order. It shows in no ink, and once it is in order it stays
as it is. -/
namespace Offside.Respace

open Text

variable {width : Nat} {l s u : Text} {ls : List Text}

/-- The margin is of whole units, and there is neither a tab behind it nor a blank at the end. -/
structure Settled (width : Nat) (l : Text) : Prop where
  noTab : '\t' ∉ l
  endsSolid : EndsSolid l
  margin : width ∣ Margin.spaces l

theorem settled_replicate {k : Nat} (hu : Trimmed u) (hl : OneLine u) (hk : width ∣ k) :
    Settled width (List.replicate k ' ' ++ u) where
  noTab := by
    intro h
    rcases List.mem_append.mp h with h | h
    · cases (List.mem_replicate.mp h).2
    · exact (hl '\t' h).2.2 rfl
  endsSolid := hu.ends.append hu.ne_nil
  margin := by rwa [Margin.spaces_of_trimmed hu]

theorem settled_nil : Settled width [] := ⟨by simp, endsSolid_nil, ⟨0, rfl⟩⟩

/-- A line whose blanks are in order has no tab to expand. -/
theorem expand_of_settled (h : Settled width l) : expand width l = l := by
  have hflat : (l.flatMap fun c => if c == '\t' then List.replicate width ' ' else [c]) = l := by
    have hne : ∀ c ∈ l, c ≠ '\t' := by
      rintro c hc rfl
      exact h.noTab hc
    clear h
    induction l with
    | nil => rfl
    | cons c l ih =>
      have hc : (c == '\t') = false := by simpa using hne c List.mem_cons_self
      rw [List.flatMap_cons, ih fun d hd => hne d (List.mem_cons_of_mem c hd), hc]
      rfl
  rw [expand, hflat, trimEnd_eq_self h.endsSolid]

/-- A line in order stays as it is. -/
theorem line_of_settled (h : Settled width l) : line width l = l := by
  rw [line, expand_of_settled h, Nat.div_mul_cancel h.margin, ← (Margin.eq_replicate_append l).1]

theorem endsSolid_expand (width : Nat) (l : Text) : EndsSolid (expand width l) :=
  endsSolid_trimEnd _

theorem not_mem_expand (width : Nat) (l : Text) : '\t' ∉ expand width l := by
  intro h
  have hmem := subset_trimEnd _ _ h
  obtain ⟨c, -, hc⟩ := List.mem_flatMap.mp hmem
  split at hc
  · cases (List.mem_replicate.mp hc).2
  · next hne =>
    obtain rfl := List.mem_singleton.mp hc
    simp at hne

/-- A line that is put in order is in order. -/
theorem settled_line (width : Nat) (l : Text) : Settled width (line width l) := by
  obtain ⟨hexpand, hhead⟩ := Margin.eq_replicate_append (expand width l)
  obtain ⟨t, ht⟩ : ∃ t, t = (expand width l).drop (Margin.spaces (expand width l)) := ⟨_, rfl⟩
  have hline : line width l =
      List.replicate (Margin.spaces (expand width l) / width * width) ' ' ++ t := by
    rw [ht]
    rfl
  rw [← ht] at hexpand hhead
  have htab : '\t' ∉ t := fun h => not_mem_expand width l (hexpand ▸ List.mem_append_right _ h)
  have hends : EndsSolid (expand width l) := endsSolid_expand width l
  rw [hline]
  refine ⟨?_, ?_, ?_⟩
  · intro h
    rcases List.mem_append.mp h with h | h
    · cases (List.mem_replicate.mp h).2
    · exact htab h
  · by_cases hnil : t = []
    · -- nothing stands behind the margin, and then there is no margin either
      have hzero : Margin.spaces (expand width l) = 0 := by
        rw [hexpand, hnil, List.append_nil] at hends
        cases hn : Margin.spaces (expand width l) with
        | zero => rfl
        | succ n =>
          rw [hn, List.replicate_succ'] at hends
          cases endsSolid_concat.mp hends
      simp [hnil, hzero, endsSolid_nil]
    · rw [hexpand] at hends
      exact hends.of_append.append hnil
  · rw [Margin.spaces_replicate _ hhead]
    exact Nat.dvd_mul_left ..

/-- Putting the white space of a line in order breaks no line. -/
theorem unbroken_line (h : Unbroken l) (width : Nat) : Unbroken (line width l) := by
  have hexpand : Unbroken (expand width l) := by
    intro c hc
    obtain ⟨d, hd, hc⟩ := List.mem_flatMap.mp (subset_trimEnd _ _ hc)
    split at hc
    · obtain rfl := (List.mem_replicate.mp hc).2
      decide
    · obtain rfl := List.mem_singleton.mp hc
      exact h c hd
  intro c hc
  rcases List.mem_append.mp hc with hc | hc
  · obtain rfl := (List.mem_replicate.mp hc).2
    decide
  · exact hexpand c (List.mem_of_mem_drop hc)

theorem ink_expand (width : Nat) (l : Text) : ink (expand width l) = ink l := by
  rw [expand, ink_trimEnd, ink_flatMap]
  induction l with
  | nil => rfl
  | cons c l ih =>
    rw [List.flatMap_cons, ih]
    split
    · next hc =>
      obtain rfl : c = '\t' := by simpa using hc
      rw [ink_replicate, ink_cons_of_blank rfl, List.nil_append]
    · rw [← ink_append, List.singleton_append]

theorem ink_line (width : Nat) (l : Text) : ink (line width l) = ink l := by
  rw [← ink_expand width l, line, ink_append, ink_replicate, List.nil_append]
  conv => rhs; rw [(Margin.eq_replicate_append (expand width l)).1]
  rw [ink_append, ink_replicate, List.nil_append]

/-- No ink is lost. -/
theorem ink_text (size : Int) (s : Text) : ink (text size s) = ink s := by
  rw [text, ink_unlines, List.flatMap_map]
  simp only [ink_line]
  exact ink_lines s

/-- Lines in order stay as they are. -/
theorem text_unlines {size : Int} (hne : ls ≠ []) (hl : ∀ l ∈ ls, Unbroken l)
    (hs : ∀ l ∈ ls, Settled (unit size) l) : text size (unlines ls) = unlines ls := by
  have hmap : ls.map (line (unit size)) = ls.map id :=
    List.map_congr_left fun l hl => line_of_settled (hs l hl)
  rw [text, unifyNewlines_of_not_mem (not_mem_unlines hl), lines_unlines hne hl, hmap, List.map_id]

theorem unbroken_text (size : Int) (s : Text) :
    ∀ l ∈ (lines (unifyNewlines s)).map (line (unit size)), Unbroken l := by
  intro l hl
  obtain ⟨k, hk, rfl⟩ := List.mem_map.mp hl
  exact unbroken_line (unbroken_of_mem_lines hk) _

theorem unifyNewlines_text (size : Int) (s : Text) : unifyNewlines (text size s) = text size s :=
  unifyNewlines_of_not_mem (not_mem_unlines (unbroken_text size s))

/-- The lines of the result are the lines of the text in order. -/
theorem lines_text (size : Int) (s : Text) :
    lines (text size s) = (lines (unifyNewlines s)).map (line (unit size)) := by
  apply lines_unlines
  · simpa [lines] using splitWhen_ne_nil _ _
  · exact unbroken_text size s

/-- The second time nothing changes any more. -/
theorem text_text (size : Int) (s : Text) : text size (text size s) = text size s := by
  refine text_unlines ?_ (unbroken_text size s) ?_
  · simpa [lines] using splitWhen_ne_nil _ _
  · intro l hl
    obtain ⟨k, -, rfl⟩ := List.mem_map.mp hl
    exact settled_line _ k

/-- Ended lines in order stay as they are. -/
theorem text_endLines {size : Int} (hl : ∀ l ∈ ls, Unbroken l)
    (hs : ∀ l ∈ ls, Settled (unit size) l) : text size (endLines ls) = endLines ls := by
  cases hls : ls with
  | nil =>
    have hnil : text size (unlines [[]]) = unlines [[]] :=
      text_unlines (by simp) (by simp [Unbroken]) (by simp [settled_nil])
    exact hnil
  | cons k ks =>
    have hne : ls ≠ [] := by simp [hls]
    rw [← hls, endLines_eq_unlines hne]
    refine text_unlines (by simp) ?_ ?_
    · intro l hl'
      rcases List.mem_append.mp hl' with hl' | hl'
      · exact hl l hl'
      · simp [List.mem_singleton.mp hl', Unbroken]
    · intro l hl'
      rcases List.mem_append.mp hl' with hl' | hl'
      · exact hs l hl'
      · rw [List.mem_singleton.mp hl']
        exact settled_nil

end Offside.Respace

namespace Offside

/-- A document is formatted exactly when its lines can be indented. -/
theorem format?_eq_ok {o : Layout} {s : Text} {f : Formatted} :
    format? o s = .ok f ↔ checkIndent o.indentSize = .ok () ∧ f = format o s := by
  constructor
  · intro h
    obtain ⟨⟨⟩, hcheck, hf⟩ := eq_ok_of_map h
    exact ⟨hcheck, hf.symm⟩
  · rintro ⟨hcheck, rfl⟩
    rw [format?, hcheck]
    rfl

end Offside
