import Mathlib.Tactic.IntervalCases
import Mathlib.Tactic.SplitIfs
import Offside.Text.Utf8

/-! The bytes that a text is written in. They are read back as that text. -/
namespace Offside.Text.Utf8

variable {b bits n : Nat} {range follower : Nat × Nat} {followers : List (Nat × Nat)}
  {bs : List Nat} {s : Text}

/-! ## Bytes, one at a time -/

def Within (range : Nat × Nat) (b : Nat) : Prop := range.1 ≤ b ∧ b ≤ range.2

theorem units_single (h : lead? b = some ⟨bits, []⟩) :
    units none (b :: bs) = some (Char.ofNat bits) :: units none bs := by
  simp only [units, units.start, h]

theorem units_first (h : lead? b = some ⟨bits, follower :: followers⟩) :
    units none (b :: bs) = units (some ⟨bits, follower :: followers⟩) bs := by
  simp only [units, units.start, h]

theorem units_next (h : Within range b) :
    units (some ⟨bits, range :: follower :: followers⟩) (b :: bs) =
      units (some ⟨bits * 64 + (b - 0x80), follower :: followers⟩) bs := by
  have hrange : (range.1 ≤ b && b ≤ range.2) = true := by simp [h.1, h.2]
  simp only [units, hrange, List.isEmpty_cons, if_true, Bool.false_eq_true, if_false]

theorem units_last (h : Within range b) :
    units (some ⟨bits, [range]⟩) (b :: bs) =
      some (Char.ofNat (bits * 64 + (b - 0x80))) :: units none bs := by
  have hrange : (range.1 ≤ b && b ≤ range.2) = true := by simp [h.1, h.2]
  simp only [units, hrange, List.isEmpty_nil, if_true]

/-! ## First bytes -/

theorem lead?_one (h : b < 0x80) : lead? b = some ⟨b, []⟩ := by
  rw [lead?, if_pos h]

theorem lead?_two (hlow : 2 ≤ bits) (hhigh : bits < 32) :
    lead? (0xC0 + bits) = some ⟨bits, [anyFollower]⟩ := by
  have hrange : (0xC2 ≤ 0xC0 + bits && 0xC0 + bits ≤ 0xDF) = true := by
    simp only [Bool.and_eq_true, decide_eq_true_eq]
    omega
  rw [lead?, if_neg (by omega), if_pos hrange, Nat.add_sub_cancel_left]

/-- What the second of three bytes may be. It keeps out long forms and surrogates. -/
def secondOfThree (bits : Nat) : Nat × Nat :=
  if bits = 0 then (0xA0, 0xBF) else if bits = 0xD then (0x80, 0x9F) else anyFollower

theorem lead?_three (h : bits < 16) :
    lead? (0xE0 + bits) = some ⟨bits, [secondOfThree bits, anyFollower]⟩ := by
  interval_cases bits <;> rfl

/-- What the second of four bytes may be. It keeps out long forms and numbers beyond the last. -/
def secondOfFour (bits : Nat) : Nat × Nat :=
  if bits = 0 then (0x90, 0xBF) else if bits = 4 then (0x80, 0x8F) else anyFollower

theorem lead?_four (h : bits < 5) :
    lead? (0xF0 + bits) = some ⟨bits, [secondOfFour bits, anyFollower, anyFollower]⟩ := by
  interval_cases bits <;> rfl

/-! ## Further bytes -/

theorem within_anyFollower (n : Nat) : Within anyFollower (0x80 + n % 64) := by
  have hlt := Nat.mod_lt n (by decide : 0 < 64)
  simp only [Within, anyFollower]
  omega

theorem within_secondOfThree (hlow : 0x800 ≤ n) (hvalid : n < 0xD800 ∨ 0xDFFF < n) :
    Within (secondOfThree (n / 4096)) (0x80 + n / 64 % 64) := by
  rw [secondOfThree]
  split_ifs with hzero hthirteen
  · dsimp only [Within]
    omega
  · dsimp only [Within]
    omega
  · exact within_anyFollower _

theorem within_secondOfFour (hlow : 0x10000 ≤ n) (hhigh : n < 0x110000) :
    Within (secondOfFour (n / 262144)) (0x80 + n / 4096 % 64) := by
  rw [secondOfFour]
  split_ifs with hzero hfour
  · dsimp only [Within]
    omega
  · dsimp only [Within]
    omega
  · exact within_anyFollower _

/-! ## Characters and texts -/

/-- The bytes of a character are read as the character. -/
theorem units_encodeChar (c : Char) (bs : List Nat) :
    units none (encodeChar c ++ bs) = some c :: units none bs := by
  obtain ⟨n, hn⟩ : ∃ n, n = c.toNat := ⟨_, rfl⟩
  have hvalid : n < 0xD800 ∨ 0xDFFF < n ∧ n < 0x110000 := hn ▸ c.valid
  have hc : Char.ofNat n = c := by rw [hn, Char.ofNat_toNat]
  simp only [encodeChar, ← hn]
  split_ifs with hone htwo hthree
  · rw [List.singleton_append, units_single (lead?_one hone), hc]
  · have hbits : n / 64 * 64 + (0x80 + n % 64 - 0x80) = n := by omega
    rw [List.cons_append, List.singleton_append, units_first (lead?_two (by omega) (by omega)),
      units_last (within_anyFollower n), hbits, hc]
  · have hbits : (n / 4096 * 64 + (0x80 + n / 64 % 64 - 0x80)) * 64 +
        (0x80 + n % 64 - 0x80) = n := by
      omega
    rw [List.cons_append, List.cons_append, List.singleton_append,
      units_first (lead?_three (by omega)),
      units_next (within_secondOfThree (by omega) (hvalid.imp_right And.left)),
      units_last (within_anyFollower n), hbits, hc]
  · have hbits : ((n / 262144 * 64 + (0x80 + n / 4096 % 64 - 0x80)) * 64 +
        (0x80 + n / 64 % 64 - 0x80)) * 64 + (0x80 + n % 64 - 0x80) = n := by
      omega
    rw [List.cons_append, List.cons_append, List.cons_append, List.singleton_append,
      units_first (lead?_four (by omega)),
      units_next (within_secondOfFour (by omega) (by omega)),
      units_next (within_anyFollower (n / 64)), units_last (within_anyFollower n), hbits, hc]

theorem encode_cons (c : Char) (s : Text) : encode (c :: s) = encodeChar c ++ encode s :=
  List.flatMap_cons ..

theorem units_encode (s : Text) : units none (encode s) = s.map some := by
  induction s with
  | nil => rfl
  | cons c s ih => rw [encode_cons, units_encodeChar, ih, List.map_cons]

/-- The bytes of a text are read as the text. -/
theorem decode?_encode (s : Text) : decode? (encode s) = some s := by
  rw [decode?, units_encode]
  induction s with
  | nil => rfl
  | cons c s ih =>
    rw [List.map_cons, List.mapM_cons, ih]
    rfl

/-! ## Bytes that are cut off -/

theorem length_encodeChar (c : Char) : (encodeChar c).length = c.utf8Size := by
  have hval : c.val.toNat = c.toNat := rfl
  rw [encodeChar, Char.utf8Size]
  simp only [UInt32.le_iff_toNat_le, hval, UInt32.toNat_ofNatLT]
  split_ifs <;> first | rfl | omega

/-- The characters of bytes; what belongs to no character counts for nothing. -/
def readable (bytes : List Nat) : Text := (units none bytes).filterMap id

theorem readable_encodeChar_append (c : Char) (bs : List Nat) :
    readable (encodeChar c ++ bs) = c :: readable bs := by
  rw [readable, units_encodeChar]
  rfl

/-- A character that is cut off in the middle is not read. -/
theorem readable_take_encodeChar (c : Char) (hn : n < (encodeChar c).length) :
    readable ((encodeChar c).take n) = [] := by
  obtain ⟨k, hk⟩ : ∃ k, k = c.toNat := ⟨_, rfl⟩
  have hvalid : k < 0xD800 ∨ 0xDFFF < k ∧ k < 0x110000 := hk ▸ c.valid
  simp only [encodeChar, ← hk] at hn ⊢
  split_ifs at hn ⊢ with hone htwo hthree
  · obtain rfl : n = 0 := by simpa using hn
    rfl
  · have hlead := @lead?_two (k / 64) (by omega) (by omega)
    have hn : n < 2 := by simpa using hn
    interval_cases n
    · rfl
    · rw [readable, List.take_succ_cons, units_first hlead]
      rfl
  · have hlead := @lead?_three (k / 4096) (by omega)
    have hsecond := within_secondOfThree (n := k) (by omega) (hvalid.imp_right And.left)
    have hn : n < 3 := by simpa using hn
    interval_cases n
    · rfl
    · rw [readable, List.take_succ_cons, units_first hlead]
      rfl
    · rw [readable, List.take_succ_cons, List.take_succ_cons, units_first hlead,
        units_next hsecond]
      rfl
  · have hlead := @lead?_four (k / 262144) (by omega)
    have hsecond := within_secondOfFour (n := k) (by omega) (by omega)
    have hn : n < 4 := by simpa using hn
    interval_cases n
    · rfl
    · rw [readable, List.take_succ_cons, units_first hlead]
      rfl
    · rw [readable, List.take_succ_cons, List.take_succ_cons, units_first hlead,
        units_next hsecond]
      rfl
    · rw [readable, List.take_succ_cons, List.take_succ_cons, List.take_succ_cons,
        units_first hlead, units_next hsecond, units_next (within_anyFollower (k / 64))]
      rfl

end Offside.Text.Utf8
