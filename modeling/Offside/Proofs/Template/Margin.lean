import Offside.Proofs.Template.Line

/-! The margin of a line. -/
namespace Offside.Margin

open Text

variable {s t content : Text} {n level : Nat}

theorem spaces_replicate (n : Nat) (ht : t.head? ≠ some ' ') :
    spaces (List.replicate n ' ' ++ t) = n := by
  have h : (List.replicate n ' ' ++ t).takeWhile (· == ' ') = List.replicate n ' ' := by
    rw [List.takeWhile_append_of_pos (by simp +contextual)]
    cases t with
    | nil => simp
    | cons c t =>
      have hc : c ≠ ' ' := by simpa using ht
      simp [hc]
  rw [spaces, h, List.length_replicate]

/-- A line is its spaces and what stands behind them. -/
theorem eq_replicate_append (s : Text) :
    s = List.replicate (spaces s) ' ' ++ s.drop (spaces s) ∧
      (s.drop (spaces s)).head? ≠ some ' ' := by
  have htake : s.takeWhile (· == ' ') = List.replicate (spaces s) ' ' := by
    rw [List.eq_replicate_iff]
    exact ⟨rfl, fun c hc => by simpa using List.mem_takeWhile_imp hc⟩
  have hdrop : s.drop (spaces s) = s.dropWhile (· == ' ') :=
    calc s.drop (spaces s)
        = (s.takeWhile (· == ' ') ++ s.dropWhile (· == ' ')).drop (spaces s) := by
          rw [List.takeWhile_append_dropWhile]
      _ = s.dropWhile (· == ' ') := List.drop_left' rfl
  refine ⟨?_, ?_⟩
  · rw [← htake, hdrop, List.takeWhile_append_dropWhile]
  · rw [hdrop]
    intro h
    have := List.head?_dropWhile_not (· == ' ') s
    rw [h] at this
    simp at this

theorem ofLine_blank : ofLine s = .blank ↔ Blank s := by
  rw [ofLine]
  constructor
  · intro h
    split at h
    · next hb => exact fun c hc => List.all_eq_true.mp hb c hc
    · split at h
      · cases h
      · dsimp only at h
        split at h <;> cases h
  · intro h
    rw [if_pos (List.all_eq_true.mpr h)]

/-- What is known of a line whose margin is in order. -/
theorem ofLine_level (h : ofLine s = .level level content) :
    spaces s = 2 * level ∧ content = trimEnd (s.drop (spaces s)) ∧ ¬ Blank s ∧
      ∀ c ∈ s, c ≠ '\t' := by
  have hb : ¬ Blank s := by
    intro hb
    rw [ofLine_blank.mpr hb] at h
    cases h
  rw [ofLine] at h
  split at h
  · cases h
  · split at h
    · cases h
    · next htab =>
      dsimp only at h
      split at h
      · cases h
      · next hodd =>
        obtain ⟨rfl, rfl⟩ := Margin.level.inj h
        refine ⟨?_, rfl, hb, ?_⟩
        · have : spaces s % 2 ≠ 1 := by simpa using hodd
          omega
        · intro c hc
          simpa using List.findIdx?_eq_none_iff.mp htab c hc

/-- What a line says behind its margin stands on one line and ends without blanks. -/
theorem content_of_level (h : ofLine s = .level level content) (hl : Unbroken s) :
    EndsSolid content ∧ OneLine content := by
  obtain ⟨-, rfl, -, htab⟩ := ofLine_level h
  refine ⟨endsSolid_trimEnd _, fun c hc => ?_⟩
  have hmem := List.mem_of_mem_drop (subset_trimEnd _ c hc)
  exact ⟨(hl c hmem).1, (hl c hmem).2, htab c hmem⟩

theorem spaces_of_trimmed (ht : Trimmed t) (n : Nat) : spaces (List.replicate n ' ' ++ t) = n := by
  refine spaces_replicate n fun h => ?_
  have := ht.starts ' ' h
  simp [isBlank] at this

theorem not_blank_of_trimmed (ht : Trimmed t) (n : Nat) : ¬ Blank (List.replicate n ' ' ++ t) := by
  obtain ⟨c, u, rfl⟩ := List.exists_cons_of_ne_nil ht.ne_nil
  intro hb
  have hc := hb c (by simp)
  simp [startsSolid_cons.mp ht.starts] at hc

theorem unbroken_of_oneLine (hl : OneLine t) (n : Nat) : Unbroken (List.replicate n ' ' ++ t) := by
  intro c hc
  rcases List.mem_append.mp hc with hc | hc
  · obtain rfl := (List.mem_replicate.mp hc).2
    decide
  · exact hl.unbroken c hc

/-- What stands behind a margin is read as it is. -/
theorem ofLine_replicate (ht : Trimmed t) (hl : OneLine t) (n : Nat) :
    ofLine (List.replicate n ' ' ++ t) =
      if n % 2 == 1 then .odd (n + 1) else .level (n / 2) t := by
  have hb : ¬ (List.replicate n ' ' ++ t).all isBlank = true := fun hb =>
    not_blank_of_trimmed ht n fun c hc => List.all_eq_true.mp hb c hc
  have htab : (List.replicate n ' ' ++ t).findIdx? (· == '\t') = none := by
    rw [List.findIdx?_eq_none_iff]
    intro c hc
    rcases List.mem_append.mp hc with hc | hc
    · obtain rfl := (List.mem_replicate.mp hc).2
      rfl
    · simpa using (hl c hc).2.2
  rw [ofLine, if_neg hb, htab, spaces_of_trimmed ht]
  simp [List.drop_left', trimEnd_eq_self ht.ends]

theorem ofLine_written (ht : Trimmed t) (hl : OneLine t) (level : Nat) :
    ofLine (List.replicate (2 * level) ' ' ++ t) = .level level t := by
  rw [ofLine_replicate ht hl, if_neg (by simp)]
  congr 1
  omega

/-- A line moved to the right by levels; a line without content stays as it is. -/
def deepen (levels : Nat) (s : Text) : Text :=
  if s.all isBlank then s else List.replicate (2 * levels) ' ' ++ s

theorem deepen_blank (h : Blank s) (levels : Nat) : deepen levels s = s :=
  if_pos (List.all_eq_true.mpr h)

theorem deepen_zero (s : Text) : deepen 0 s = s := by
  rw [deepen]
  split <;> rfl

theorem spaces_replicate_append (n : Nat) (s : Text) :
    spaces (List.replicate n ' ' ++ s) = n + spaces s := by
  obtain ⟨hs, hhead⟩ := eq_replicate_append s
  conv => lhs; rw [hs, ← List.append_assoc, List.replicate_append_replicate]
  exact spaces_replicate _ hhead

/-- A line that is moved says the same, so many levels deeper. -/
theorem ofLine_deepen (h : ofLine s = .level level content) (levels : Nat) :
    ofLine (deepen levels s) = .level (level + levels) content := by
  obtain ⟨hspaces, hcontent, hblank, htabs⟩ := ofLine_level h
  have hall : ¬ s.all isBlank = true := fun hb => hblank fun c hc => List.all_eq_true.mp hb c hc
  have hall' : ¬ (List.replicate (2 * levels) ' ' ++ s).all isBlank = true := by
    rw [List.all_append]
    simp [hall]
  have htab : (List.replicate (2 * levels) ' ' ++ s).findIdx? (· == '\t') = none := by
    rw [List.findIdx?_eq_none_iff]
    intro c hc
    rcases List.mem_append.mp hc with hc | hc
    · obtain rfl := (List.mem_replicate.mp hc).2
      rfl
    · simpa using htabs c hc
  have heven : (2 * levels + 2 * level) % 2 = 0 := by omega
  have hhalf : (2 * levels + 2 * level) / 2 = level + levels := by omega
  have hdrop : (List.replicate (2 * levels) ' ' ++ s).drop (2 * levels + 2 * level) =
      s.drop (2 * level) := by
    rw [← List.drop_drop, List.drop_left' (List.length_replicate ..)]
  rw [deepen, if_neg hall, ofLine, if_neg hall', htab, spaces_replicate_append, hspaces]
  simp only [heven, hhalf, hdrop]
  rw [hcontent, hspaces]
  rfl

/-- Spaces at the end of a line say nothing. -/
theorem ofLine_append_replicate (s : Text) (n : Nat) :
    ofLine (s ++ List.replicate n ' ') = ofLine s := by
  have hall : (s ++ List.replicate n ' ').all isBlank = s.all isBlank := by
    have hspaces : (List.replicate n ' ').all isBlank = true :=
      List.all_eq_true.mpr (blank_replicate n)
    rw [List.all_append, hspaces, Bool.and_true]
  have htab : (s ++ List.replicate n ' ').findIdx? (· == '\t') = s.findIdx? (· == '\t') := by
    have hspaces : (List.replicate n ' ').findIdx? (· == '\t') = none := by
      simp
    rw [List.findIdx?_append, hspaces, Option.map_none, Option.or_none]
  rw [ofLine, ofLine, hall, htab]
  split
  · rfl
  · next hb =>
    obtain ⟨hs, hhead⟩ := eq_replicate_append s
    obtain ⟨t, ht⟩ : ∃ t, t = s.drop (spaces s) := ⟨_, rfl⟩
    rw [← ht] at hs hhead
    have hne : t ≠ [] := by
      rintro rfl
      rw [List.append_nil] at hs
      exact hb (List.all_eq_true.mpr (hs ▸ blank_replicate _))
    have hhead' : (t ++ List.replicate n ' ').head? ≠ some ' ' := by
      rwa [List.head?_append_of_ne_nil _ hne]
    have hspaces : spaces (s ++ List.replicate n ' ') = spaces s := by
      conv => lhs; rw [hs, List.append_assoc]
      exact spaces_replicate _ hhead'
    have hdrop : trimEnd ((s ++ List.replicate n ' ').drop (spaces s)) =
        trimEnd (s.drop (spaces s)) := by
      have hle : spaces s ≤ s.length := (List.takeWhile_prefix _).length_le
      rw [List.drop_append_of_le_length hle, trimEnd_append_of_blank (blank_replicate n)]
    simp only [hspaces, hdrop]

end Offside.Margin
