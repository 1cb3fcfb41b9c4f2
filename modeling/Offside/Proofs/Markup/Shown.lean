import Mathlib.Data.List.DropRight
import Offside.Proofs.Text.Lines

/-! What is shown of a text that stands in markup as it is. Blanks are kept within a line and
dropped at its ends, and a line break between two texts is shown as a space. -/
namespace Offside.Markup

open Text

/-- The characters that end a line. -/
def isBreak (c : Char) : Bool := c == '\n' || c == '\r'

def trimFront (l : Text) : Text := l.dropWhile isLineBlank

def trimBack (l : Text) : Text := l.rdropWhile isLineBlank

/-- Lines that follow a line break, without the blanks at the breaks. -/
def trimmedBehind : List Text → List Text
  | [] => []
  | [l] => [trimFront l]
  | l :: ls => trimBack (trimFront l) :: trimmedBehind ls

/-- Lines without the blanks at the breaks between them. -/
def trimmedLines : List Text → List Text
  | [] => []
  | [l] => [l]
  | l :: ls => trimBack l :: trimmedBehind ls

/-- What is shown of a text that stands in markup as it is. -/
def shown (s : Text) : Text :=
  [' '].intercalate ((trimmedLines (splitWhen isBreak s)).filter (!·.isEmpty))

theorem trimmedBehind_cons {ls : List Text} (h : ls ≠ []) (l : Text) :
    trimmedBehind (l :: ls) = trimBack (trimFront l) :: trimmedBehind ls := by
  cases ls with
  | nil => exact absurd rfl h
  | cons _ _ => rfl

theorem trimmedLines_cons {ls : List Text} (h : ls ≠ []) (l : Text) :
    trimmedLines (l :: ls) = trimBack l :: trimmedBehind ls := by
  cases ls with
  | nil => exact absurd rfl h
  | cons _ _ => rfl

variable {margin s w : Text} {ws : List Text}

theorem isBreak_of_unbroken (h : Unbroken s) : ∀ x ∈ s, isBreak x = false := by
  intro x hx
  simpa [isBreak] using h x hx

/-- A text within a line is shown as it is. -/
theorem shown_of_unbroken (h : Unbroken s) : shown s = s := by
  rw [shown, splitWhen_of_all_neg (isBreak_of_unbroken h)]
  cases s <;> simp [trimmedLines]

/-- Texts on lines of their own, each behind a line break. -/
def onLines (margin : Text) (ws : List Text) : Text := ws.flatMap fun w => '\n' :: (margin ++ w)

@[simp] theorem onLines_nil : onLines margin [] = [] := rfl

@[simp] theorem onLines_cons :
    onLines margin (w :: ws) = '\n' :: (margin ++ w) ++ onLines margin ws := rfl

@[simp] theorem onLines_append {vs : List Text} :
    onLines margin (ws ++ vs) = onLines margin ws ++ onLines margin vs :=
  List.flatMap_append

theorem isLineBlank_of_solid {x : Char} (h : isBlank x = false) : isLineBlank x = false := by
  by_contra hedge
  simp only [isLineBlank, Bool.or_eq_true, beq_iff_eq, Bool.not_eq_false] at hedge
  rcases hedge with rfl | rfl <;> cases h

theorem trimFront_of_trimmed (hw : Trimmed w) : trimFront w = w := by
  rw [trimFront, List.dropWhile_eq_self_iff]
  intro hl
  simpa using isLineBlank_of_solid
    (hw.starts _ (List.head?_eq_getElem? ▸ List.getElem?_eq_getElem hl))

theorem trimBack_of_trimmed (hw : Trimmed w) : trimBack w = w := by
  rw [trimBack, List.rdropWhile_eq_self_iff]
  intro hl
  simpa using isLineBlank_of_solid (hw.ends _ (List.getLast?_eq_some_getLast hl))

theorem trimBack_trimFront (hmargin : ∀ x ∈ margin, isLineBlank x = true) (hw : Trimmed w) :
    trimBack (trimFront (margin ++ w)) = w := by
  have hfront : trimFront (margin ++ w) = trimFront w := List.dropWhile_append_of_pos hmargin
  rw [hfront, trimFront_of_trimmed hw, trimBack_of_trimmed hw]

/-- Lines with a margin are found again when the text between two tags is split. -/
theorem splitWhen_onLines (hmargin : ∀ x ∈ margin, isBreak x = false)
    (hws : ∀ w ∈ ws, Unbroken w) :
    splitWhen isBreak (onLines margin ws ++ '\n' :: margin) =
      [] :: (ws.map (margin ++ ·) ++ [margin]) := by
  have hbreak : ∀ {s : Text} {ls : List Text}, splitWhen isBreak s = ls →
      splitWhen isBreak ('\n' :: s) = [] :: ls := by
    intro s ls h
    rw [← h]
    rfl
  induction ws with
  | nil => exact hbreak (splitWhen_of_all_neg hmargin)
  | cons w ws ih =>
    obtain ⟨hw, hws⟩ := List.forall_mem_cons.mp hws
    have hline : ∀ x ∈ margin ++ w, isBreak x = false :=
      List.forall_mem_append.mpr ⟨hmargin, isBreak_of_unbroken hw⟩
    have hwrite : onLines margin (w :: ws) ++ '\n' :: margin =
        '\n' :: ((margin ++ w) ++ (onLines margin ws ++ '\n' :: margin)) := by
      simp
    rw [hwrite, hbreak (splitWhen_append hline (ih hws))]
    simp

theorem trimmedBehind_onLines (hmargin : ∀ x ∈ margin, isLineBlank x = true)
    (hws : ∀ w ∈ ws, Trimmed w) :
    trimmedBehind (ws.map (margin ++ ·) ++ [margin]) = ws ++ [[]] := by
  induction ws with
  | nil =>
    have hblank : trimFront margin = [] := List.dropWhile_eq_nil_iff.mpr hmargin
    simp [trimmedBehind, hblank]
  | cons w ws ih =>
    obtain ⟨hw, hws⟩ := List.forall_mem_cons.mp hws
    have hmore : ws.map (margin ++ ·) ++ [margin] ≠ [] := by simp
    rw [List.map_cons, List.cons_append, trimmedBehind_cons hmore, trimBack_trimFront hmargin hw,
      ih hws, List.cons_append]

/-- Texts on lines of their own are shown with a space between them. -/
theorem shown_onLines (hmargin : ∀ x ∈ margin, isLineBlank x = true)
    (hws : ∀ w ∈ ws, Trimmed w ∧ Unbroken w) :
    shown (onLines margin ws ++ '\n' :: margin) = [' '].intercalate ws := by
  have hlines : ∀ x ∈ margin, isBreak x = false := by
    intro x hx
    have hedge := hmargin x hx
    simp only [isLineBlank, Bool.or_eq_true, beq_iff_eq] at hedge
    rcases hedge with rfl | rfl <;> rfl
  have hfilter : ws.filter (!·.isEmpty) = ws :=
    List.filter_eq_self.mpr fun w hw => by simpa using (hws w hw).1.ne_nil
  rw [shown, splitWhen_onLines hlines fun w hw => (hws w hw).2, trimmedLines_cons (by simp),
    trimmedBehind_onLines hmargin fun w hw => (hws w hw).1]
  simp [hfilter, trimBack]

end Offside.Markup
