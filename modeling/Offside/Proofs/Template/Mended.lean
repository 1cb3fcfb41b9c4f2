import Mathlib.Data.List.Forall2
import Mathlib.Order.Bounds.Defs
import Offside.Proofs.Template.Reports
import Offside.Proofs.Template.Respace

/-!
What putting the white space in order makes of the lines of a text. No line is lost, the margins are
rounded down, and the lines of the result are read without a report about their margin.
-/
namespace Offside.Respace

open Text

variable {width n : Nat} {l k l' k' s : Text} {size : Int}

/-- A line with each tab turned into spaces. -/
def untab (width : Nat) (l : Text) : Text :=
  l.flatMap fun c => if c == '\t' then List.replicate width ' ' else [c]

theorem expand_eq (width : Nat) (l : Text) : expand width l = trimEnd (untab width l) := rfl

theorem blank_untab : Blank (untab width l) ↔ Blank l := by
  rw [← ink_eq_nil_iff, ← ink_eq_nil_iff, ← ink_trimEnd, ← expand_eq, ink_expand]

/-- Blanks behind a line that says something do not belong to its margin. -/
theorem spaces_trimEnd (h : ¬ Blank s) : Margin.spaces (trimEnd s) = Margin.spaces s := by
  obtain ⟨b, -, hs⟩ := exists_trimEnd s
  have hshort : ((trimEnd s).takeWhile (· == ' ')).length ≠ (trimEnd s).length := by
    intro hlength
    have hself := (List.takeWhile_prefix (· == ' ')).eq_of_length hlength
    apply h
    rw [← trimEnd_eq_nil_iff]
    by_contra hne
    have hlast := List.takeWhile_eq_self_iff.mp hself _ (List.getLast_mem hne)
    have hsolid := endsSolid_trimEnd s _ (List.getLast?_eq_some_getLast hne)
    rw [eq_of_beq hlast] at hsolid
    cases hsolid
  conv => rhs; rw [hs, Margin.spaces, List.takeWhile_append, if_neg hshort]
  rfl

theorem isGreatest_div_mul (hwidth : 0 < width) (n : Nat) :
    IsGreatest {j | width ∣ j ∧ j ≤ n} (n / width * width) := by
  refine ⟨⟨Nat.dvd_mul_left .., Nat.div_mul_le_self ..⟩, ?_⟩
  rintro j ⟨⟨q, rfl⟩, hle⟩
  rw [Nat.mul_comm]
  apply Nat.mul_le_mul_right
  exact (Nat.le_div_iff_mul_le hwidth).mpr (Nat.mul_comm .. ▸ hle)

theorem spaces_line (width : Nat) (l : Text) :
    Margin.spaces (line width l) = Margin.spaces (expand width l) / width * width :=
  Margin.spaces_replicate _ (Margin.eq_replicate_append (expand width l)).2

theorem line_eq_nil_iff : line width l = [] ↔ Blank l := by
  constructor
  · intro h
    rw [← ink_eq_nil_iff, ← ink_line width l, h, ink_nil]
  · intro h
    have hexpand : expand width l = [] := by
      rw [expand_eq]
      exact trimEnd_eq_nil_iff.mpr (blank_untab.mpr h)
    simp [line, hexpand, Margin.spaces]

/-- What becomes of a line: a blank one is empty, and any other has neither a tab nor a blank at its
end, and as many whole units of margin as it had with its tabs turned into spaces. -/
structure Mended (width : Nat) (l k : Text) : Prop where
  empty : k = [] ↔ Blank l
  noTab : '\t' ∉ k
  endsSolid : EndsSolid k
  margin : ¬ Blank l →
    IsGreatest {j | width ∣ j ∧ j ≤ Margin.spaces (untab width l)} (Margin.spaces k)

theorem mended_line (hwidth : 0 < width) (l : Text) : Mended width l (line width l) where
  empty := line_eq_nil_iff
  noTab := (settled_line width l).noTab
  endsSolid := (settled_line width l).endsSolid
  margin := by
    intro h
    rw [spaces_line, expand_eq, spaces_trimEnd fun hb => h (blank_untab.mp hb)]
    exact isGreatest_div_mul hwidth _

/-- Of two lines the one with less margin never gets more. -/
theorem Mended.mono (h : Mended width l k) (h' : Mended width l' k') (hl : ¬ Blank l)
    (hl' : ¬ Blank l') (hle : Margin.spaces (untab width l) ≤ Margin.spaces (untab width l')) :
    Margin.spaces k ≤ Margin.spaces k' := by
  obtain ⟨⟨hdvd, hk⟩, -⟩ := h.margin hl
  exact (h'.margin hl').2 ⟨hdvd, hk.trans hle⟩

theorem unit_pos (size : Int) : 0 < unit size := by
  rw [unit]
  omega

/-- A line in order is read, if whole levels make up a unit. -/
theorem Settled.not_askew {l : Line} (h : Settled width l.text) (hwidth : 2 ∣ width) :
    ¬ l.Askew := by
  have heven : Margin.spaces l.text % 2 = 0 :=
    Nat.mod_eq_zero_of_dvd (Nat.dvd_trans hwidth h.margin)
  have hfind : l.text.findIdx? (· == '\t') = none := by
    rw [List.findIdx?_eq_none_iff]
    rintro c hc
    simpa using fun he : c = '\t' => h.noTab (he ▸ hc)
  rintro ⟨column, haskew⟩
  rw [Margin.ofLine, hfind] at haskew
  split at haskew
  · rcases haskew with h | h <;> cases h
  · simp [heven] at haskew

/-- Putting the white space in order mends each line and loses none. A line never gets more margin
than one that had more before; if whole levels make up a unit, no margin of the result is reported.
There is a result whenever a unit can be laid out. -/
theorem mended_text (size : Int) (s : Text) :
    List.Forall₂ (Mended (unit size)) (lines (unifyNewlines s)) (lines (text size s)) ∧
    (∀ p ∈ (lines (unifyNewlines s)).zip (lines (text size s)),
      ∀ q ∈ (lines (unifyNewlines s)).zip (lines (text size s)),
        ¬ Blank p.1 → ¬ Blank q.1 →
          Margin.spaces (untab (unit size) p.1) ≤ Margin.spaces (untab (unit size) q.1) →
            Margin.spaces p.2 ≤ Margin.spaces q.2) ∧
    (2 ∣ unit size → ∀ d ∈ (Template.read (text size s)).diagnostics, ¬ d.OfMargin) ∧
    (size < Nat.pow 2 39 → text? size s = .ok (text size s)) := by
  have hmended : List.Forall₂ (Mended (unit size)) (lines (unifyNewlines s))
      (lines (text size s)) := by
    rw [lines_text, List.forall₂_map_right_iff]
    exact List.forall₂_same.mpr fun l _ => mended_line (unit_pos size) l
  refine ⟨hmended, ?_, ?_, ?_⟩
  · rintro ⟨l, k⟩ hp ⟨l', k'⟩ hq hl hl' hle
    have hk := List.forall₂_iff_zip.mp hmended |>.2 hp
    have hk' := List.forall₂_iff_zip.mp hmended |>.2 hq
    exact hk.mono hk' hl hl' hle
  · intro heven d hd hmargin
    obtain ⟨l, hl, -, haskew⟩ := Template.exists_askew_of_ofMargin hd hmargin
    obtain ⟨-, htext⟩ := Line.le_of_mem_numberFrom hl
    rw [unifyNewlines_text, lines_text] at htext
    obtain ⟨k, -, hk⟩ := List.mem_map.mp htext
    have hsettled : Settled (unit size) l.text := hk ▸ settled_line (unit size) k
    exact hsettled.not_askew heven haskew
  · intro hsize
    have hcheck : checkIndent size = .ok () := by
      have hpos : 0 < Nat.pow 2 39 := by decide
      have hlt : Nat.pow 2 39 < Nat.pow 2 63 := by decide
      rw [checkIndent, if_neg (by omega), if_neg (by omega)]
    rw [text?, hcheck]
    rfl

/-- Lines with tabs, half a level in, and with a blank that is no space behind them. -/
def raggedSource : Text := "div\n   p \u00a0\n \u2003\n\t\tb\t\n".toList

theorem mended_text_raggedSource :
    2 ∣ unit 4 ∧ (∀ d ∈ (Template.read (text 4 raggedSource)).diagnostics, ¬ d.OfMargin) ∧
      text? 4 raggedSource = .ok (text 4 raggedSource) := by
  have heven : 2 ∣ unit 4 := by decide
  obtain ⟨-, -, hreports, hresult⟩ := mended_text 4 raggedSource
  exact ⟨heven, hreports heven, hresult (by decide)⟩

end Offside.Respace
