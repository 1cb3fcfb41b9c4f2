import Offside.Config
import Offside.Proofs.Diagnostic

/-! Which layouts a configuration can set. They are those whose indent is not negative: this is
checked of the indent, and all else is free. -/
namespace Offside.Config

open Data

variable {α : Type} {P : α → Prop} {set : α → Text → Text → Value → Except ConfigError α} {a b : α}
  {part key path : Text} {names : List Text} {v : Value} {members : List (Value × Value)}
  {o p : Layout} {n : Int}

theorem readIndent_nonneg (h : readIndent path v = .ok n) : 0 ≤ n := by
  cases v with
  | integer k =>
    rw [readIndent] at h
    split at h
    · cases h
    · cases h
      omega
  | _ => cases h

/-- An indent that is not negative stays so, whatever a configuration sets. -/
theorem setFormat_nonneg (h : setFormat o key path v = .ok p) (ho : 0 ≤ o.indentSize) :
    0 ≤ p.indentSize := by
  rw [setFormat] at h
  by_cases hindent : key = indentKey
  · rw [if_pos (by simpa using hindent)] at h
    obtain ⟨n, hn, rfl⟩ := eq_ok_of_map h
    exact readIndent_nonneg hn
  · -- each of the other keys holds a flag
    rw [if_neg (by simpa using hindent)] at h
    split at h
    · obtain ⟨x, -, rfl⟩ := eq_ok_of_map h
      exact ho
    · split at h
      · obtain ⟨x, -, rfl⟩ := eq_ok_of_map h
        exact ho
      · split at h
        · obtain ⟨x, -, rfl⟩ := eq_ok_of_map h
          exact ho
        · cases h

/-- What each member keeps, all of them keep. -/
theorem setAll_keeps (hset : ∀ {a b key path v}, set a key path v = .ok b → P a → P b)
    (h : setAll set part a members = .ok b) (ha : P a) : P b := by
  induction members generalizing a with
  | nil =>
    cases h
    exact ha
  | cons m ms ih =>
    obtain ⟨key, v⟩ := m
    obtain ⟨c, hc, h⟩ := eq_ok_of_bind h
    exact ih h (hset hc ha)

theorem readPart_keeps (hset : ∀ {a b key path v}, set a key path v = .ok b → P a → P b)
    {got : Option Value} (h : readPart set names part a got = .ok b) (ha : P a) : P b := by
  rw [readPart.eq_def] at h
  split at h
  · cases h
    exact ha
  · cases h
    exact ha
  · split at h
    · cases h
    · obtain ⟨-, -, h⟩ := eq_ok_of_bind h
      exact setAll_keeps hset h ha

/-- An indent that was accepted is not negative. -/
theorem ofValue_nonneg {s : Settings} (h : ofValue v = .ok s) : 0 ≤ s.format.indentSize := by
  rw [ofValue] at h
  split at h
  · cases h
  · obtain ⟨-, -, h⟩ := eq_ok_of_bind h
    obtain ⟨o, ho, h⟩ := eq_ok_of_bind h
    obtain ⟨e, -, h⟩ := eq_ok_of_bind h
    cases h
    have hdefault : 0 ≤ ({} : Layout).indentSize := by decide
    exact readPart_keeps (P := fun o : Layout => 0 ≤ o.indentSize) setFormat_nonneg ho hdefault

/-- The members that set all parts of a layout. -/
def layoutMembers (o : Layout) : List (Value × Value) :=
  [(.text indentKey, .integer o.indentSize),
    (.text "prefer_compact_selectors".toList, .boolean o.compactSelectors),
    (.text "space_around_pipe".toList, .boolean o.spaceAroundPipe),
    (.text "normalize_props_spacing".toList, .boolean o.spacedProps)]

theorem readPart_layoutMembers (h : 0 ≤ o.indentSize) :
    readPart setFormat formatKeys "format".toList {} (some (.mapping (layoutMembers o))) =
      .ok o := by
  have hindent : ∀ path, readIndent path (.integer o.indentSize) = .ok o.indentSize := by
    intro path
    rw [readIndent, if_neg (by omega)]
  have hset : setAll setFormat "format".toList {} (layoutMembers o) = .ok o := by
    rw [layoutMembers, setAll, setFormat, if_pos (by rfl), hindent]
    rfl
  exact hset

/-- Every layout with such an indent is accepted. -/
theorem ofValue_layoutMembers (h : 0 ≤ o.indentSize) :
    ofValue (.mapping [(.text "format".toList, .mapping (layoutMembers o))]) =
      .ok { format := o } := by
  calc ofValue (.mapping [(.text "format".toList, .mapping (layoutMembers o))])
      = (readPart setFormat formatKeys "format".toList {}
          (some (.mapping (layoutMembers o)))).bind fun o => .ok { format := o } := rfl
    _ = .ok { format := o } := by
      rw [readPart_layoutMembers h]
      rfl

theorem exists_ofValue_iff :
    (∃ v s, ofValue v = .ok s ∧ s.format = o) ↔ 0 ≤ o.indentSize := by
  constructor
  · rintro ⟨v, s, hs, rfl⟩
    exact ofValue_nonneg hs
  · intro h
    exact ⟨_, _, ofValue_layoutMembers h, rfl⟩

end Offside.Config
