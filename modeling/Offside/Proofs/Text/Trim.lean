import Mathlib.Data.List.DropRight
import Offside.Text.Basic

/-! Trimming, seen from the ends of a text, and the ink of a text: what is left without its
blanks. -/
namespace Offside.Text

variable {a b s t : Text} {c : Char}

def Blank (s : Text) : Prop := ∀ c ∈ s, isBlank c = true

def Solid (s : Text) : Prop := ∀ c ∈ s, isBlank c = false

def StartsSolid (s : Text) : Prop := ∀ c ∈ s.head?, isBlank c = false

def EndsSolid (s : Text) : Prop := ∀ c ∈ s.getLast?, isBlank c = false

/-- There is something, and no blank on either side of it. -/
structure Trimmed (s : Text) : Prop where
  ne_nil : s ≠ []
  starts : StartsSolid s
  ends : EndsSolid s

/-- The text without its blanks. -/
def ink (s : Text) : Text := s.filter (!isBlank ·)

theorem toNat_of_isAlphanum (h : c.isAlphanum = true) :
    ((65 ≤ c.toNat ∧ c.toNat ≤ 90) ∨ (97 ≤ c.toNat ∧ c.toNat ≤ 122)) ∨
      (48 ≤ c.toNat ∧ c.toNat ≤ 57) := by
  have hval : ((decide (c.val ≥ 'A'.val ∧ c.val ≤ 'Z'.val) ||
    (c.val ≥ 'a'.val && c.val ≤ 'z'.val)) || (c.val ≥ '0'.val && c.val ≤ '9'.val)) = true := h
  simp only [Bool.or_eq_true, Bool.and_eq_true, decide_eq_true_eq, UInt32.le_iff_toNat_le,
    ge_iff_le] at hval
  exact hval

theorem isBlank_of_isAlphanum (h : c.isAlphanum = true) : isBlank c = false := by
  have hc := toNat_of_isAlphanum h
  simp only [isBlank, Bool.or_eq_false_iff, Bool.and_eq_false_iff, decide_eq_false_iff_not,
    beq_eq_false_iff_ne]
  omega

theorem isBlank_of_isAsciiWord (h : isAsciiWord c = true) : isBlank c = false := by
  simp only [isAsciiWord, Bool.or_eq_true, beq_iff_eq] at h
  rcases h with h | rfl
  · exact isBlank_of_isAlphanum h
  · decide

theorem startsSolid_cons : StartsSolid (c :: s) ↔ isBlank c = false := by
  simp [StartsSolid]

theorem StartsSolid.append (h : StartsSolid a) (ha : a ≠ []) : StartsSolid (a ++ b) := by
  cases a with
  | nil => exact (ha rfl).elim
  | cons c a => exact startsSolid_cons.mpr (startsSolid_cons.mp h)

theorem EndsSolid.append (h : EndsSolid b) (hb : b ≠ []) : EndsSolid (a ++ b) := by
  intro c hc
  rw [List.getLast?_append_of_ne_nil a hb] at hc
  exact h c hc

theorem EndsSolid.of_append (h : EndsSolid (a ++ b)) : EndsSolid b := by
  intro c hc
  apply h c
  rw [List.getLast?_append, Option.mem_def.mp hc]
  rfl

theorem EndsSolid.tail (h : EndsSolid (c :: s)) : EndsSolid s := EndsSolid.of_append (a := [c]) h

theorem endsSolid_nil : EndsSolid [] := by simp [EndsSolid]

theorem endsSolid_concat : EndsSolid (s ++ [c]) ↔ isBlank c = false := by
  simp [EndsSolid]

theorem Solid.startsSolid (h : Solid s) : StartsSolid s :=
  fun c hc => h c (List.mem_of_mem_head? hc)

theorem Solid.endsSolid (h : Solid s) : EndsSolid s :=
  fun c hc => h c (List.mem_of_mem_getLast? hc)

theorem Solid.trimmed (h : Solid s) (hs : s ≠ []) : Trimmed s := ⟨hs, h.startsSolid, h.endsSolid⟩

theorem Trimmed.append (ha : Trimmed a) (hb : Trimmed b) (m : Text) : Trimmed (a ++ m ++ b) where
  ne_nil := by simp [ha.ne_nil]
  starts := by
    rw [List.append_assoc]
    exact ha.starts.append ha.ne_nil
  ends := hb.ends.append hb.ne_nil

/-! ## Trimming -/

theorem startsSolid_trimStart (s : Text) : StartsSolid (trimStart s) := by
  intro c hc
  have h := List.head?_dropWhile_not isBlank s
  rw [show (List.dropWhile isBlank s).head? = some c from hc] at h
  exact h

theorem trimStart_eq_self (h : StartsSolid s) : trimStart s = s := by
  cases s with
  | nil => rfl
  | cons c s => simp [trimStart, startsSolid_cons.mp h]

theorem trimStart_append_of_blank (ha : Blank a) (s : Text) : trimStart (a ++ s) = trimStart s :=
  List.dropWhile_append_of_pos ha

theorem exists_trimStart (s : Text) : ∃ a, Blank a ∧ s = a ++ trimStart s :=
  ⟨s.takeWhile isBlank, fun _ hc => List.mem_takeWhile_imp hc,
    List.takeWhile_append_dropWhile.symm⟩

theorem trimEnd_eq_reverse (s : Text) : trimEnd s = (trimStart s.reverse).reverse := rfl

theorem endsSolid_reverse : EndsSolid s.reverse ↔ StartsSolid s := by
  simp [EndsSolid, StartsSolid]

theorem endsSolid_trimEnd (s : Text) : EndsSolid (trimEnd s) :=
  endsSolid_reverse.mpr (startsSolid_trimStart s.reverse)

theorem trimEnd_eq_self (h : EndsSolid s) : trimEnd s = s := by
  have h' : StartsSolid s.reverse := endsSolid_reverse.mp (by simpa using h)
  rw [trimEnd_eq_reverse, trimStart_eq_self h', List.reverse_reverse]

theorem exists_trimEnd (s : Text) : ∃ b, Blank b ∧ s = trimEnd s ++ b := by
  obtain ⟨b, hb, hs⟩ := exists_trimStart s.reverse
  refine ⟨b.reverse, fun c hc => hb c (List.mem_reverse.mp hc), ?_⟩
  have := congrArg List.reverse hs
  rwa [List.reverse_reverse, List.reverse_append] at this

theorem trimEnd_append_of_blank (hb : Blank b) (s : Text) : trimEnd (s ++ b) = trimEnd s := by
  have hb' : Blank b.reverse := fun c hc => hb c (List.mem_reverse.mp hc)
  rw [trimEnd_eq_reverse, List.reverse_append, trimStart_append_of_blank hb', trimEnd_eq_reverse]

theorem startsSolid_of_append (h : StartsSolid (a ++ b)) : StartsSolid a := by
  cases a with
  | nil => simp [StartsSolid]
  | cons c a => exact startsSolid_cons.mpr (startsSolid_cons.mp h)

theorem startsSolid_trim (s : Text) : StartsSolid (trim s) := by
  obtain ⟨b, _, hs⟩ := exists_trimEnd (trimStart s)
  have h := startsSolid_trimStart s
  rw [hs] at h
  exact startsSolid_of_append h

theorem endsSolid_trim (s : Text) : EndsSolid (trim s) := endsSolid_trimEnd _

theorem trimmed_trim (h : trim s ≠ []) : Trimmed (trim s) :=
  ⟨h, startsSolid_trim s, endsSolid_trim s⟩

/-- Trimming takes blanks from both sides and nothing else. -/
theorem exists_trim (s : Text) : ∃ a b, Blank a ∧ Blank b ∧ s = a ++ trim s ++ b := by
  obtain ⟨a, ha, hs⟩ := exists_trimStart s
  obtain ⟨b, hb, ht⟩ := exists_trimEnd (trimStart s)
  exact ⟨a, b, ha, hb, by rw [List.append_assoc, trim, ← ht, ← hs]⟩

theorem Trimmed.trim_eq (h : Trimmed s) : trim s = s := by
  rw [trim, trimStart_eq_self h.starts, trimEnd_eq_self h.ends]

/-- A trimmed text comes out again from between blanks. -/
theorem Trimmed.trim_between (h : Trimmed s) (ha : Blank a) (hb : Blank b) :
    trim (a ++ s ++ b) = s := by
  rw [trim, List.append_assoc, trimStart_append_of_blank ha,
    trimStart_eq_self (h.starts.append h.ne_nil), trimEnd_append_of_blank hb,
    trimEnd_eq_self h.ends]

theorem blank_nil : Blank [] := by simp [Blank]

theorem blank_space : Blank [' '] := by simp [Blank, isBlank]

theorem Trimmed.trim_cons_space (h : Trimmed s) : trim (' ' :: s) = s := by
  simpa using h.trim_between blank_space blank_nil

theorem subset_trim (s : Text) : ∀ c ∈ trim s, c ∈ s := by
  intro c hc
  obtain ⟨a, b, _, _, hs⟩ := exists_trim s
  rw [hs]
  simp [hc]

theorem subset_trimEnd (s : Text) : ∀ c ∈ trimEnd s, c ∈ s := by
  intro c hc
  obtain ⟨b, _, hs⟩ := exists_trimEnd s
  rw [hs]
  simp [hc]

theorem trimEnd_eq_nil_iff : trimEnd s = [] ↔ Blank s := List.rdropWhile_eq_nil_iff

/-! ## Ink -/

@[simp] theorem ink_nil : ink [] = [] := rfl

@[simp] theorem ink_append (s t : Text) : ink (s ++ t) = ink s ++ ink t := List.filter_append ..

theorem ink_cons_of_blank (h : isBlank c = true) (s : Text) : ink (c :: s) = ink s := by
  simp [ink, h]

theorem ink_cons_of_solid (h : isBlank c = false) (s : Text) : ink (c :: s) = c :: ink s := by
  simp [ink, h]

theorem ink_of_solid (h : Solid s) : ink s = s := by
  rw [ink, List.filter_eq_self]
  intro c hc
  simp [h c hc]

theorem ink_eq_nil (h : Blank s) : ink s = [] := by
  rw [ink, List.filter_eq_nil_iff]
  intro c hc
  simp [h c hc]

theorem ink_eq_nil_iff : ink s = [] ↔ Blank s := by
  refine ⟨fun h c hc => ?_, ink_eq_nil⟩
  simpa using List.filter_eq_nil_iff.mp h c hc

theorem ink_flatten (ls : List Text) : ink ls.flatten = ls.flatMap ink := by
  induction ls with
  | nil => rfl
  | cons l ls ih => simp [ih]

theorem ink_flatMap {α : Type} (f : α → Text) (as : List α) :
    ink (as.flatMap f) = as.flatMap fun a => ink (f a) := by
  induction as with
  | nil => rfl
  | cons a as ih => simp [ih]

@[simp] theorem ink_trim (s : Text) : ink (trim s) = ink s := by
  obtain ⟨a, b, ha, hb, hs⟩ := exists_trim s
  conv => rhs; rw [hs]
  simp [ink_eq_nil ha, ink_eq_nil hb]

@[simp] theorem ink_trimStart (s : Text) : ink (trimStart s) = ink s := by
  obtain ⟨a, ha, hs⟩ := exists_trimStart s
  conv => rhs; rw [hs]
  simp [ink_eq_nil ha]

@[simp] theorem ink_trimEnd (s : Text) : ink (trimEnd s) = ink s := by
  obtain ⟨b, hb, hs⟩ := exists_trimEnd s
  conv => rhs; rw [hs]
  simp [ink_eq_nil hb]

theorem blank_replicate (n : Nat) : Blank (List.replicate n ' ') := by
  intro c hc
  rw [(List.mem_replicate.mp hc).2]
  rfl

@[simp] theorem ink_replicate (n : Nat) : ink (List.replicate n ' ') = [] :=
  ink_eq_nil (blank_replicate n)

end Offside.Text
