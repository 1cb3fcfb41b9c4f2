import Offside.Proofs.Text.Lines
import Offside.Template.Line

/-! The numbered lines of a text: which they are, and where in the text they stand. -/
namespace Offside.Line

open Text

variable {c : Char} {s t : Text} {ts : List Text} {l : Line} {i number offset : Nat}

theorem map_text_numberFrom (number offset : Nat) (ts : List Text) :
    (numberFrom number offset ts).map Line.text = ts := by
  induction ts generalizing number offset with
  | nil => rfl
  | cons w ts ih => rw [numberFrom, List.map_cons, ih]

theorem nodup_numberFrom (number offset : Nat) (ts : List Text) :
    ((numberFrom number offset ts).map Line.number).Nodup := by
  have hrange : (numberFrom number offset ts).map Line.number = List.range' number ts.length := by
    induction ts generalizing number offset with
    | nil => rfl
    | cons t ts ih => rw [numberFrom, List.map_cons, ih, List.length_cons, List.range'_succ]
  rw [hrange]
  exact List.nodup_range'

theorem numberFrom_append (number offset : Nat) (ts us : List Text) :
    ∃ number' offset', numberFrom number offset (ts ++ us) =
      numberFrom number offset ts ++ numberFrom number' offset' us := by
  induction ts generalizing number offset with
  | nil => exact ⟨number, offset, rfl⟩
  | cons w ts ih =>
    obtain ⟨number', offset', h⟩ := ih (number + 1) (offset + w.length + 1)
    exact ⟨number', offset', by rw [List.cons_append, numberFrom, h]; rfl⟩

theorem le_of_mem_numberFrom (h : l ∈ numberFrom number offset ts) :
    number ≤ l.number ∧ l.text ∈ ts := by
  induction ts generalizing number offset with
  | nil => cases h
  | cons w ts ih =>
    rcases List.mem_cons.mp h with rfl | h
    · exact ⟨le_rfl, List.mem_cons_self⟩
    · obtain ⟨hn, hmem⟩ := ih h
      exact ⟨by omega, List.mem_cons_of_mem w hmem⟩

/-! ## Lines in their text -/

/-- A first line is the whole text, or ends at a line feed. -/
theorem lines_eq_cons {t : Text} {ts : List Text} (h : lines s = t :: ts) :
    ts = [] ∧ s = t ∨ ∃ u, s = t ++ '\n' :: u ∧ lines u = ts := by
  induction s generalizing t ts with
  | nil =>
    obtain ⟨rfl, rfl⟩ := List.cons.inj h
    exact Or.inl ⟨rfl, rfl⟩
  | cons c s ih =>
    by_cases hc : c = '\n'
    · subst hc
      rw [lines_feed] at h
      obtain ⟨rfl, rfl⟩ := List.cons.inj h
      exact Or.inr ⟨s, rfl, rfl⟩
    · obtain ⟨t', ts', hs⟩ := List.exists_cons_of_ne_nil (splitWhen_ne_nil (· == '\n') s)
      rw [lines_cons hc hs] at h
      obtain ⟨rfl, rfl⟩ := List.cons.inj h
      rcases ih hs with ⟨rfl, rfl⟩ | ⟨u, rfl, hu⟩
      · exact Or.inl ⟨rfl, rfl⟩
      · exact Or.inr ⟨u, rfl, hu⟩

/-- A line starts in the text where its offset says. -/
theorem exists_of_mem_ofText (h : l ∈ ofText s) :
    ∃ before after, s = before ++ l.text ++ after ∧ before.length = l.offset := by
  have hrun : ∀ {ts : List Text} {number offset : Nat} {s : Text}, lines s = ts →
      l ∈ numberFrom number offset ts →
        ∃ before after, s = before ++ l.text ++ after ∧ offset + before.length = l.offset := by
    intro ts
    induction ts with
    | nil => simp [numberFrom]
    | cons t ts ih =>
      intro number offset s hs hl
      rcases List.mem_cons.mp hl with rfl | hl
      · rcases lines_eq_cons hs with ⟨-, rfl⟩ | ⟨u, rfl, -⟩
        · exact ⟨[], [], by simp, rfl⟩
        · exact ⟨[], '\n' :: u, by simp, rfl⟩
      · rcases lines_eq_cons hs with ⟨rfl, -⟩ | ⟨u, rfl, hu⟩
        · cases hl
        · obtain ⟨before, after, rfl, hoffset⟩ := ih hu hl
          refine ⟨t ++ '\n' :: before, after, by simp, ?_⟩
          rw [← hoffset, List.length_append, List.length_cons]
          omega
  obtain ⟨before, after, hs, hoffset⟩ := hrun rfl h
  exact ⟨before, after, hs, by simpa using hoffset⟩

/-! ## Lines and columns -/

/-- The number of characters behind the last line feed of a text. -/
def sinceFeed (s : Text) : Nat := (s.reverse.takeWhile (· != '\n')).length

theorem sinceFeed_of_not_mem (h : '\n' ∉ s) : sinceFeed s = s.length := by
  have hall : ∀ c ∈ s.reverse, (c != '\n') = true := by
    intro c hc
    simpa using fun he : c = '\n' => h (he ▸ List.mem_reverse.mp hc)
  rw [sinceFeed, List.takeWhile_eq_self_iff.mpr hall, List.length_reverse]

theorem sinceFeed_cons_of_mem (h : '\n' ∈ s) (c : Char) : sinceFeed (c :: s) = sinceFeed s := by
  have hshort : (s.reverse.takeWhile (· != '\n')).length ≠ s.reverse.length := by
    intro hlength
    have hself := (List.takeWhile_prefix (· != '\n')).eq_of_length hlength
    simpa using List.takeWhile_eq_self_iff.mp hself '\n' (List.mem_reverse.mpr h)
  rw [sinceFeed, sinceFeed, List.reverse_cons, List.takeWhile_append, if_neg hshort]

theorem sinceFeed_feed (s : Text) : sinceFeed ('\n' :: s) = sinceFeed s := by
  by_cases h : '\n' ∈ s
  · exact sinceFeed_cons_of_mem h '\n'
  · rw [sinceFeed, sinceFeed, List.reverse_cons, List.takeWhile_append]
    split <;> simp_all

/-- The character stands in the line at this column; the place behind the last character counts as
one. -/
structure InLine (l : Line) (i column : Nat) : Prop where
  place : l.offset + column = i + 1
  start : 1 ≤ column
  stop : column ≤ l.text.length + 1

/-- The line of a character has the number of the line feeds before it, and the column counts the
characters since the last of them. The induction is on the text; a character that ends no line
belongs to the first of the lines behind it. -/
theorem exists_line_of_place (number offset : Nat) (hi : i ≤ s.length) :
    ∃ l ∈ numberFrom number offset (lines s), l.number = number + (s.take i).count '\n' ∧
      InLine l (offset + i) (sinceFeed (s.take i) + 1) := by
  induction s generalizing i number offset with
  | nil =>
    obtain rfl : i = 0 := Nat.le_zero.mp hi
    exact ⟨⟨number, offset, []⟩, List.mem_cons_self, rfl, rfl, le_rfl, le_rfl⟩
  | cons c s ih =>
    obtain ⟨t, ts, hlines⟩ := List.exists_cons_of_ne_nil (splitWhen_ne_nil (· == '\n') s)
    cases i with
    | zero =>
      obtain ⟨u, us, hcons⟩ := List.exists_cons_of_ne_nil (splitWhen_ne_nil (· == '\n') (c :: s))
      rw [lines, hcons]
      exact ⟨⟨number, offset, u⟩, List.mem_cons_self, rfl, rfl, le_rfl, by simp [sinceFeed]⟩
    | succ i =>
      have hi : i ≤ s.length := Nat.le_of_succ_le_succ hi
      by_cases hc : c = '\n'
      · obtain ⟨l, hl, hnumber, hin⟩ := @ih i (number + 1) (offset + 1) hi
        subst hc
        rw [lines_feed]
        refine ⟨l, List.mem_cons_of_mem _ hl, ?_, ?_⟩
        · rw [List.take_succ_cons, List.count_cons_self]
          omega
        · have hplace := hin.place
          rw [List.take_succ_cons, sinceFeed_feed]
          exact ⟨by omega, hin.start, hin.stop⟩
      · obtain ⟨l, hl, hnumber, hin⟩ := @ih i number (offset + 1) hi
        have hcount : (s.take i).count '\n' = ((c :: s).take (i + 1)).count '\n' := by
          rw [List.take_succ_cons, List.count_cons_of_ne hc]
        rw [lines_cons hc hlines]
        rw [lines, hlines, numberFrom] at hl
        have hplace := hin.place
        have hstop := hin.stop
        rcases List.mem_cons.mp hl with rfl | hl
        · -- No line ends before the character, so its line starts with `c`.
          dsimp only at hnumber hplace hstop
          have hfree : '\n' ∉ s.take i := List.count_eq_zero.mp (by omega)
          have hfree' : '\n' ∉ (c :: s).take (i + 1) := List.count_eq_zero.mp (by omega)
          have hlength : ((c :: s).take (i + 1)).length = i + 1 :=
            List.length_take_of_le (Nat.succ_le_succ hi)
          rw [sinceFeed_of_not_mem hfree, List.length_take_of_le hi] at hplace hstop
          refine ⟨⟨number, offset, c :: t⟩, List.mem_cons_self, ?_, ?_⟩
          · dsimp only
            omega
          · rw [sinceFeed_of_not_mem hfree', hlength]
            exact ⟨by dsimp only; omega, by omega, Nat.succ_le_succ hstop⟩
        · -- A line has ended, so the character `c` in front changes nothing.
          have hlater := (le_of_mem_numberFrom hl).1
          have hfeed : '\n' ∈ s.take i := List.count_pos_iff.mp (by omega)
          have hoffset : offset + (c :: t).length + 1 = offset + 1 + t.length + 1 := by
            rw [List.length_cons]
            omega
          refine ⟨l, List.mem_cons_of_mem _ (hoffset ▸ hl), by omega, ?_⟩
          rw [List.take_succ_cons, sinceFeed_cons_of_mem hfeed]
          exact ⟨by omega, hin.start, hstop⟩

end Offside.Line
