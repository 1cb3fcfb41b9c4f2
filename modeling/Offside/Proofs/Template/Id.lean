import Offside.Proofs.Template.Sound

/-! The id of a template that was read. It is the declared one without the ending that marks it, or
there is none, and then nothing else is known of one. -/
namespace Offside

open Text

/-- The id that a valid value stands for is not empty. -/
theorem TemplateId.logical_of_isValid {v : Text} (h : isValid v = true) :
    logical v = logicalId v ∧ logicalId v ≠ [] := by
  have hne : logicalId v ≠ [] := by
    intro hnil
    cases v with
    | nil => cases h
    | cons c s =>
      rw [logicalId, dropEnding?] at hnil
      split at hnil
      · next hsuffix =>
        -- nothing is left only of the ending itself, which starts with no letter
        have hlength := List.take_eq_nil_iff.mp hnil
        obtain ⟨front, hfront⟩ := List.isSuffixOf_iff_suffix.mp hsuffix
        have hfrontlength := congrArg List.length hfront
        simp only [List.length_append, List.length_cons, List.length_nil] at hlength hfrontlength
        obtain rfl : front = [] := by
          apply List.eq_nil_of_length_eq_zero
          rcases hlength with hlength | hlength
          · omega
          · cases hlength
        rw [List.nil_append] at hfront
        rw [← hfront] at h
        revert h
        decide
      · cases hnil
  refine ⟨?_, hne⟩
  rw [logical]
  split
  · next hnil => exact (hne hnil).elim
  · rfl

namespace Outliner

variable {P : List Part → Prop} {l : Line} {ls : List Line} {s t : Outliner}

/-- The place of the id is known only of an id that was declared. -/
def Locates (s : Outliner) : Prop := s.template.rawId = none → s.template.idSpan = none

theorem locates_start (span : Option Span) : (start span).Locates := fun _ => rfl

theorem Locates.narrows (h : s.Locates) (ht : s.Narrows t) : t.Locates := by
  intro hraw
  rw [ht.template] at hraw ⊢
  exact h hraw

/-- A line keeps the span of the id where the id is. -/
theorem Locates.transition (h : s.Locates) (hs : Transition P l s t) : t.Locates := by
  have hnarrows : ∀ {u : Outliner}, s.Narrows u → u.Locates := fun hu => h.narrows hu
  cases hs with
  | blank => exact h
  | id _ =>
    intro hraw
    cases hraw
  | dropped ht | field ht | classAlias ht =>
    have h' := hnarrows ht
    exact h'
  | props hp | classes hp | entry hp =>
    have h' := hnarrows hp.narrows
    exact h'

theorem locates_run (h : s.Locates) (hs : s.Leveled) (hl : ∀ l ∈ ls, Unbroken l.text) :
    (ls.foldl step s).Locates := by
  induction ls generalizing s with
  | nil => exact h
  | cons l ls ih =>
    have hstep := transition_step hs (hl l List.mem_cons_self) (yields_true _)
    exact ih (h.transition hstep) (hstep.leveled hs) fun k hk => hl k (List.mem_cons_of_mem l hk)

end Outliner

/-- A template that was read declares its id, or has none. -/
theorem Template.id_read (s : Text) :
    (read s).template.id = none ∧ (read s).template.rawId = none ∧
        (read s).template.idSpan = none ∨
      ∃ v, (read s).template.rawId = some v ∧ (read s).template.id = some (logicalId v) ∧
        logicalId v ≠ [] := by
  have hsound := sound_outline (s := s) (Outliner.yields_true _)
  have hlocates : (outline (unifyNewlines s)).Locates :=
    Outliner.locates_run (Outliner.locates_start _)
      (Outliner.sound_start (P := fun _ => True) _).leveled (unbroken_ofText s)
  rcases hsound.header.id with ⟨hraw, hid⟩ | ⟨v, hraw, hv, hid⟩
  · exact Or.inl ⟨hid, hraw, hlocates hraw⟩
  · obtain ⟨hlogical, hne⟩ := TemplateId.logical_of_isValid hv
    exact Or.inr ⟨v, hraw, by rw [← hlogical]; exact hid, hne⟩

end Offside
