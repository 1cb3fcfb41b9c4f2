import Mathlib.Data.List.Chain
import Offside.Proofs.Text.Lines

/-! The words of a text, and the text that has them one space apart. -/
namespace Offside.Text

variable {s w : Text} {ws : List Text}

theorem mem_words (h : w ∈ words s) : w ≠ [] ∧ Solid w := by
  obtain ⟨hw, hne⟩ := List.mem_filter.mp h
  exact ⟨by simpa using hne, neg_of_mem_splitWhen hw⟩

theorem intercalate_cons_of_ne_nil (w : Text) (h : ws ≠ []) :
    [' '].intercalate (w :: ws) = w ++ ' ' :: [' '].intercalate ws := by
  obtain ⟨v, vs, rfl⟩ := List.exists_cons_of_ne_nil h
  simp [List.intercalate, List.intersperse]

/-- The only blanks are single spaces between words. No other character that ends a line, or
separates in any other way, is left. -/
structure Spaced (s : Text) : Prop extends Trimmed s where
  space : ∀ c ∈ s, isBlank c = true → c = ' '
  single : s.IsChain fun b c => ¬(isBlank b = true ∧ isBlank c = true)

theorem Spaced.oneLine (h : Spaced s) : OneLine s := by
  intro c hc
  refine ⟨?_, ?_, ?_⟩ <;>
  · rintro rfl
    exact absurd (h.space _ hc (by decide)) (by decide)

theorem Solid.spaced (h : Solid w) (hne : w ≠ []) : Spaced w where
  toTrimmed := h.trimmed hne
  space c hc hblank := by simp [h c hc] at hblank
  single := by
    refine (List.pairwise_of_forall_mem_list fun b hb c _ hpair => ?_).isChain
    simp [h b hb] at hpair

/-- A word in front of words. -/
theorem Spaced.cons_word (h : Spaced s) (hw : Solid w) (hne : w ≠ []) : Spaced (w ++ ' ' :: s) where
  toTrimmed := by simpa using (hw.trimmed hne).append h.toTrimmed [' ']
  space c hc hblank := by
    rcases List.mem_append.mp hc with hc | hc
    · simp [hw c hc] at hblank
    rcases List.mem_cons.mp hc with rfl | hc
    · rfl
    · exact h.space c hc hblank
  single := by
    have hstart : (' ' :: s).IsChain fun b c => ¬(isBlank b = true ∧ isBlank c = true) :=
      List.isChain_cons.mpr ⟨fun c hc hpair => by simp [h.starts c hc] at hpair, h.single⟩
    refine List.isChain_append.mpr ⟨(hw.spaced hne).single, hstart, fun b hb c _ hpair => ?_⟩
    simp [hw b (List.mem_of_mem_getLast? hb)] at hpair

theorem spaced_intercalate (h : ∀ w ∈ ws, w ≠ [] ∧ Solid w) (hne : ws ≠ []) :
    Spaced ([' '].intercalate ws) := by
  induction ws with
  | nil => exact (hne rfl).elim
  | cons w ws ih =>
    obtain ⟨hw, hsolid⟩ := h w List.mem_cons_self
    by_cases hws : ws = []
    · subst hws
      simpa [List.intercalate] using hsolid.spaced hw
    · rw [intercalate_cons_of_ne_nil w hws]
      exact (ih (fun v hv => h v (List.mem_cons_of_mem w hv)) hws).cons_word hsolid hw

theorem spaced_squeeze (h : squeeze s ≠ []) : Spaced (squeeze s) := by
  refine spaced_intercalate (fun _ => mem_words) fun hnil => h ?_
  rw [squeeze, hnil]
  rfl

theorem ink_squeeze (s : Text) : ink (squeeze s) = ink s := by
  have hsolid : (words s).flatMap ink = (words s).flatten := by
    rw [List.flatMap_def, List.map_congr_left fun w hw => ink_of_solid (mem_words hw).2,
      List.map_id']
  rw [squeeze, ink_intercalate rfl, hsolid, words, List.flatten_filter_not_isEmpty,
    flatten_splitWhen, ink]

/-- Words in a row are found again. -/
theorem words_intercalate (h : ∀ w ∈ ws, w ≠ [] ∧ Solid w) : words ([' '].intercalate ws) = ws := by
  induction ws with
  | nil => rfl
  | cons w ws ih =>
    obtain ⟨hw, hsolid⟩ := h w List.mem_cons_self
    by_cases hws : ws = []
    · subst hws
      have hone : [' '].intercalate [w] = w := by simp [List.intercalate]
      rw [hone, words, splitWhen_of_all_neg hsolid]
      simp [hw]
    · have hrest := ih fun v hv => h v (List.mem_cons_of_mem w hv)
      rw [intercalate_cons_of_ne_nil w hws, words, splitWhen_append_cons hsolid rfl]
      rw [words] at hrest
      simp [hw, hrest]

end Offside.Text
