import Offside.Proofs.Template.Sound

/-! Reading without nesting. As long as at most one line can take children, a line on which nothing
is reported stands at the left margin or two spaces in, and only the latter nests. -/
namespace Offside

open Text

namespace Outliner

variable {l : Line} {ls : List Line} {s t : Outliner}

/-- At most one line can take children. -/
structure Shallow (s : Outliner) : Prop where
  sound : s.Sound fun _ => True
  length_frames : s.frames.length ≤ 1

/-- A line without a report is at the level of its margin, which the open lines admit. -/
theorem Shallow.transition (hs : s.Shallow) (h : Transition (fun _ => True) l s t)
    (hl : ¬ Blank l.text) (hnil : t.diagnostics = []) :
    Margin.spaces l.text = 2 ∨ Margin.spaces l.text = 0 ∧ t.Shallow := by
  have hsound := hs.sound.transition h
  have hheader : ∀ {t' : Outliner} {content : Text} {jump : List Diagnostic},
      Placed l s t' 0 content jump → jump = [] → t.frames = t'.frames →
      Margin.spaces l.text = 2 ∨ Margin.spaces l.text = 0 ∧ t.Shallow := by
    rintro t' content jump hp rfl hframes
    refine Or.inr ⟨(Margin.ofLine_level hp.margin_of_nil.1).1, hsound, ?_⟩
    rw [hframes, hp.frames, length_down]
    exact Nat.zero_le 1
  cases h with
  | blank hb => exact (hl hb).elim
  | dropped _ hne => simp [note, hne] at hnil
  | id hp => exact hheader hp (List.append_eq_nil_iff.mp hnil).2 rfl
  | props hp => exact hheader hp (List.append_eq_nil_iff.mp hnil).2 rfl
  | classes hp => exact hheader hp (List.append_eq_nil_iff.mp hnil).2 rfl
  | @field t content base f ht hprops hmargin =>
    obtain rfl := (hs.sound.props base (ht.propsLevel base hprops)).1
    exact Or.inl (Margin.ofLine_level hmargin).1
  | @classAlias t content right base a ht hclasses hmargin =>
    obtain rfl := (hs.sound.classes base (ht.classesLevel base hclasses)).1
    exact Or.inl (Margin.ofLine_level hmargin).1
  | @entry t content jump ds level m e opens hp =>
    have hjump : jump ++ ds = [] := (List.append_eq_nil_iff.mp hnil).2
    obtain ⟨rfl, -⟩ := List.append_eq_nil_iff.mp hjump
    have hspaces := (Margin.ofLine_level hp.margin_of_nil.1).1
    have hlevel : level ≤ 1 := by
      have hlength := hp.narrows.length.trans hs.length_frames
      rwa [hp.frames, length_down] at hlength
    cases level with
    | zero =>
      refine Or.inr ⟨hspaces, hsound, ?_⟩
      have hframes : ((t.enter 0 e opens).note ([] ++ ds)).frames = _ :=
        frames_enter hp.frames e opens
      rw [hframes, length_down]
      split <;> omega
    | succ k =>
      left
      omega

theorem Shallow.step (hs : s.Shallow) (hl : Unbroken l.text) (hblank : ¬ Blank l.text)
    (hnil : (s.step l).diagnostics = []) :
    Margin.spaces l.text = 2 ∨ Margin.spaces l.text = 0 ∧ (s.step l).Shallow :=
  hs.transition (transition_step hs.sound.leveled hl (yields_true _)) hblank hnil

end Outliner

end Offside
