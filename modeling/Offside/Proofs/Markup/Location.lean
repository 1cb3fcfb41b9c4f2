import Mathlib.Order.Bounds.Defs
import Offside.Markup.Selection
import Offside.Proofs.Template.Line
import Offside.Proofs.Text.Utf8

/-!
Places in a text, in bytes and in characters, and the line and column that the user reads about a
place in a selection.
-/
namespace Offside.Markup

open Text Text.Utf8

variable {c : Char} {s : Text} {i k number offset : Nat} {p : Int}

/-- The number of bytes in front of a character. -/
def bytePosition (i : Nat) (s : Text) : Nat := (encode (s.take i)).length

@[simp] theorem bytePosition_zero (s : Text) : bytePosition 0 s = 0 := rfl

@[simp] theorem bytePosition_succ_cons (i : Nat) (c : Char) (s : Text) :
    bytePosition (i + 1) (c :: s) = c.utf8Size + bytePosition i s := by
  simp only [bytePosition, List.take_succ_cons, encode_cons, List.length_append, length_encodeChar]

/-! ## Characters from bytes -/

theorem charPosition_cons_of_le (h : (c.utf8Size : Int) ≤ p) :
    charPosition p (c :: s) = charPosition (p - c.utf8Size) s + 1 := if_pos h

theorem charPosition_cons_of_lt (h : p < c.utf8Size) : charPosition p (c :: s) = 0 :=
  if_neg (by omega)

/-- The characters before a byte are those that end at or before it. -/
theorem le_charPosition_iff :
    i ≤ charPosition p s ↔ i ≤ s.length ∧ (bytePosition i s : Int) ≤ max p 0 := by
  induction s generalizing p i with
  | nil => cases i <;> simp [charPosition]
  | cons c s ih =>
    cases i with
    | zero => simp
    | succ i =>
      have hsize := c.utf8Size_pos
      rw [bytePosition_succ_cons, List.length_cons]
      by_cases h : (c.utf8Size : Int) ≤ p
      · have hi := @ih i (p - c.utf8Size)
        rw [charPosition_cons_of_le h]
        omega
      · rw [charPosition_cons_of_lt (by omega)]
        omega

/-- Later characters start at later bytes. -/
theorem bytePosition_lt (h : i < k) (hk : k ≤ s.length) : bytePosition i s < bytePosition k s := by
  induction s generalizing i k with
  | nil => exact absurd hk (by simp; omega)
  | cons c s ih =>
    obtain ⟨k, rfl⟩ := Nat.exists_eq_succ_of_ne_zero (Nat.ne_zero_of_lt h)
    have hsize := c.utf8Size_pos
    rw [Nat.succ_eq_add_one, bytePosition_succ_cons]
    cases i with
    | zero =>
      rw [bytePosition_zero]
      omega
    | succ i =>
      have hlt := ih (Nat.lt_of_succ_lt_succ h) (Nat.le_of_succ_le_succ hk)
      rw [bytePosition_succ_cons]
      omega

theorem isGreatest_charPosition (p : Int) (s : Text) :
    IsGreatest {i | i ≤ s.length ∧ (bytePosition i s : Int) ≤ max p 0} (charPosition p s) :=
  ⟨le_charPosition_iff.mp le_rfl, fun _ hi => le_charPosition_iff.mpr hi⟩

theorem charPosition_mono (s : Text) {q : Int} (hpq : p ≤ q) :
    charPosition p s ≤ charPosition q s := by
  obtain ⟨hlength, hbytes⟩ := le_charPosition_iff.mp (le_refl (charPosition p s))
  exact le_charPosition_iff.mpr ⟨hlength, by omega⟩

/-- Every byte of a character belongs to the character. -/
theorem charPosition_inside (hi : i < s.length) (hlow : (bytePosition i s : Int) ≤ p)
    (hhigh : p < bytePosition (i + 1) s) : charPosition p s = i := by
  apply le_antisymm
  · by_contra hlt
    obtain ⟨-, hnext⟩ := le_charPosition_iff.mp (Nat.succ_le_of_lt (Nat.lt_of_not_le hlt))
    rw [Nat.succ_eq_add_one] at hnext
    omega
  · exact le_charPosition_iff.mpr ⟨hi.le, by omega⟩

theorem charPosition_bytePosition (hi : i ≤ s.length) :
    charPosition (bytePosition i s) s = i := by
  apply le_antisymm
  · by_contra hlt
    obtain ⟨hlength, hbytes⟩ := le_charPosition_iff.mp (Nat.lt_of_not_le hlt)
    have hnext := bytePosition_lt (Nat.lt_succ_self i) hlength
    omega
  · exact le_charPosition_iff.mpr ⟨hi, by omega⟩

/-- Counting characters is reading the bytes in front of the place and leaving out what is cut off
there. -/
theorem charPosition_eq_length_readable (p : Int) (s : Text) :
    charPosition p s = (readable ((encode s).take p.toNat)).length := by
  induction s generalizing p with
  | nil => simp [charPosition, readable, encode, units]
  | cons c s ih =>
    rw [encode_cons, List.take_append, length_encodeChar]
    by_cases h : (c.utf8Size : Int) ≤ p
    · have hrest : p.toNat - c.utf8Size = (p - c.utf8Size).toNat := by omega
      have hwhole : (encodeChar c).length ≤ p.toNat := by
        rw [length_encodeChar]
        omega
      rw [charPosition_cons_of_le h, ih, List.take_of_length_le hwhole, hrest,
        readable_encodeChar_append, List.length_cons]
    · have hrest : p.toNat - c.utf8Size = 0 := by omega
      have hcut : p.toNat < (encodeChar c).length := by
        have hsize := c.utf8Size_pos
        rw [length_encodeChar]
        omega
      rw [charPosition_cons_of_lt (by omega), hrest, List.take_zero, List.append_nil,
        readable_take_encodeChar c hcut, List.length_nil]

/-! ## Selections -/

namespace Selection

theorem length_wrap (s : Text) :
    (wrap s).length = wrapperStart.length + s.length + wrapperEnd.length := by
  rw [wrap, List.length_append, List.length_append]

/-- The place in the selection of a byte of the program around it. -/
def place (s : Text) (p : Int) : Nat := charPosition p (wrap s) - wrapperStart.length

theorem location_eq (s : Text) (p : Int) :
    location s p = ((s.take (place s p)).count '\n' + 1, Line.sinceFeed (s.take (place s p)) + 1) :=
  rfl

theorem describeLocation_eq {line column : Nat} (h : location s p = (line, column)) :
    describeLocation s p =
      "line ".toList ++ ofNat line ++ ", column ".toList ++ ofNat column :=
  congrArg (fun place : Nat × Nat =>
    "line ".toList ++ ofNat place.1 ++ ", column ".toList ++ ofNat place.2) h

theorem describeLocation_congr {q : Int} (h : location s p = location s q) :
    describeLocation s p = describeLocation s q :=
  (describeLocation_eq h).trans (describeLocation_eq rfl).symm

/-- The byte of the program where a character of the selection starts. -/
def startByte (s : Text) (i : Nat) : Nat := bytePosition (wrapperStart.length + i) (wrap s)

theorem charPosition_startByte (hi : i ≤ s.length) :
    charPosition (startByte s i) (wrap s) = wrapperStart.length + i :=
  charPosition_bytePosition (by rw [length_wrap]; omega)

theorem place_startByte (hi : i ≤ s.length) : place s (startByte s i) = i := by
  rw [place, charPosition_startByte hi, Nat.add_sub_cancel_left]

/-- The line and column of a character are those of a line of the selection. -/
theorem exists_line_of_location (hi : i ≤ s.length) :
    ∃ l ∈ Line.ofText s, ∃ column, l.number = (s.take i).count '\n' + 1 ∧ l.InLine i column ∧
      location s (startByte s i) = (l.number, column) := by
  obtain ⟨l, hl, hnumber, hin⟩ := Line.exists_line_of_place 1 0 hi
  have hnumber : l.number = (s.take i).count '\n' + 1 := hnumber.trans (Nat.add_comm ..)
  refine ⟨l, hl, _, hnumber, Nat.zero_add i ▸ hin, ?_⟩
  rw [location_eq, place_startByte hi, hnumber]

/-- What stands before the selection is located at its first character. -/
theorem location_of_le (h : p ≤ startByte s 0) : location s p = location s (startByte s 0) := by
  have hmono := charPosition_mono (wrap s) h
  have hfirst := charPosition_startByte (Nat.zero_le s.length)
  have hplace : place s p = 0 := by
    rw [place]
    omega
  rw [location_eq, location_eq, place_startByte (Nat.zero_le _), hplace]

/-- What stands behind the selection is located at its end. -/
theorem location_of_ge (h : (startByte s s.length : Int) ≤ p) :
    location s p = location s (startByte s s.length) := by
  have hmono := charPosition_mono (wrap s) h
  have hlast := charPosition_startByte (le_refl s.length)
  have hplace : s.length ≤ place s p := by
    rw [place]
    omega
  rw [location_eq, location_eq, place_startByte le_rfl, List.take_of_length_le hplace,
    List.take_length]

/-- A byte is counted in characters as the greatest place that it has reached, which is how many
characters the bytes before it hold. The user reads about a character of a selection in which line
it stands and at which column; a byte outside the selection is taken for its nearer end. -/
theorem describeLocation_exact (s : Text) :
    (∀ p : Int,
      IsGreatest {i | i ≤ s.length ∧ (bytePosition i s : Int) ≤ max p 0} (charPosition p s) ∧
        charPosition p s = (readable ((encode s).take p.toNat)).length) ∧
    (∀ p q : Int, p ≤ q → charPosition p s ≤ charPosition q s) ∧
    (∀ i ≤ s.length, charPosition (bytePosition i s) s = i) ∧
    (∀ i < s.length, ∀ p : Int, bytePosition i s ≤ p → p < bytePosition (i + 1) s →
      charPosition p s = i) ∧
    (∀ i ≤ s.length, ∃ l ∈ Line.ofText s, ∃ column,
      l.number = (s.take i).count '\n' + 1 ∧ l.InLine i column ∧
        describeLocation s (startByte s i) =
          "line ".toList ++ ofNat l.number ++ ", column ".toList ++ ofNat column) ∧
    (∀ p : Int, p ≤ startByte s 0 →
      describeLocation s p = describeLocation s (startByte s 0)) ∧
    (∀ p : Int, startByte s s.length ≤ p →
      describeLocation s p = describeLocation s (startByte s s.length)) := by
  refine ⟨fun p => ⟨isGreatest_charPosition p s, charPosition_eq_length_readable p s⟩,
    fun p q hpq => charPosition_mono s hpq, fun i hi => charPosition_bytePosition hi,
    fun i hi p hlow hhigh => charPosition_inside hi hlow hhigh, ?_, ?_, ?_⟩
  · intro i hi
    obtain ⟨l, hl, column, hnumber, hin, hlocation⟩ := exists_line_of_location hi
    exact ⟨l, hl, column, hnumber, hin, describeLocation_eq hlocation⟩
  · exact fun p hp => describeLocation_congr (location_of_le hp)
  · exact fun p hp => describeLocation_congr (location_of_ge hp)

/-- A selection of two lines with characters of two and of three bytes. -/
theorem describeLocation_exact_accented :
    charPosition 4 "\u00e9\n\u20acx".toList = 2 ∧
      ∃ l ∈ Line.ofText "\u00e9\n\u20acx".toList, ∃ column,
        l.number = ("\u00e9\n\u20acx".toList.take 3).count '\n' + 1 ∧ l.InLine 3 column ∧
          describeLocation "\u00e9\n\u20acx".toList (startByte "\u00e9\n\u20acx".toList 3) =
            "line ".toList ++ ofNat l.number ++ ", column ".toList ++ ofNat column := by
  obtain ⟨-, -, -, hinside, hline, -, -⟩ := describeLocation_exact "\u00e9\n\u20acx".toList
  exact ⟨hinside 2 (by decide) 4 (by decide) (by decide), hline 3 (by decide)⟩

end Selection

end Offside.Markup
