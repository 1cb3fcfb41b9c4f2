import Offside.Proofs.Diagnostic
import Offside.Proofs.Template.Margin

/-! Where spans lie. A mark stands in a line before a text, and the span of that text lies within
the line and denotes the text in the whole source. -/
namespace Offside

open Text

/-- The span lies within a line, and its offsets are those of its columns. -/
structure Span.Within (span : Span) (l : Line) : Prop where
  start_line : span.start.line = l.number
  stop_line : span.stop.line = l.number
  start_offset : span.start.offset = l.offset + span.start.column - 1
  stop_offset : span.stop.offset = l.offset + span.stop.column - 1
  start_column : 1 ≤ span.start.column
  ordered : span.start.column ≤ span.stop.column
  stop_column : span.stop.column ≤ l.text.length + 1

def Span.slice (span : Span) (s : Text) : Text :=
  Text.slice s span.start.offset.toNat span.stop.offset.toNat

/-- The span lies in a line of the text and denotes these characters. -/
def Span.Denotes (s : Text) (span : Span) (w : Text) : Prop :=
  ∃ l ∈ Line.ofText s, span.Within l ∧ span.slice s = w

/-- The span denotes what its line says behind `before`; the blanks around the line count for
nothing. -/
def Span.Ends (s : Text) (span : Span) (before w : Text) : Prop :=
  ∃ l ∈ Line.ofText s, span.Within l ∧ span.slice s = w ∧ Trimmed w ∧ trim l.text = before ++ w

variable {s u v w before back : Text} {l : Line} {m : Mark} {d : Diagnostic} {p : Problem}
  {n k : Nat} {span : Span}

/-! ## Marks in a line -/

namespace Mark

/-- The mark stands in a line right before a text, with `back` behind the text. -/
def Before (m : Mark) (l : Line) (w back : Text) : Prop :=
  ∃ front, l.text = front ++ w ++ back ∧ m = l.mark (front.length + 1)

@[simp] theorem right_zero (m : Mark) : m.right 0 = m := rfl

theorem Before.right (h : m.Before l (u ++ w) back) : (m.right u.length).Before l w back := by
  obtain ⟨front, htext, rfl⟩ := h
  refine ⟨front ++ u, by simpa using htext, ?_⟩
  simp only [Line.mark, Mark.right, List.length_append, Mark.mk.injEq, true_and, and_true]
  omega

theorem Before.left (h : m.Before l (w ++ v) back) : m.Before l w (v ++ back) := by
  obtain ⟨front, htext, rfl⟩ := h
  exact ⟨front, by simpa using htext, rfl⟩

theorem Before.within (h : m.Before l w back) : (m.span w.length).Within l := by
  obtain ⟨front, htext, rfl⟩ := h
  have hlength := congrArg List.length htext
  simp only [List.length_append] at hlength
  constructor <;> simp only [Mark.span, Span.onLine, Line.mark] <;> omega

/-- The span of a text denotes it. -/
theorem Before.slice_span (h : m.Before l w back) (hl : l ∈ Line.ofText s) :
    (m.span w.length).slice s = w := by
  obtain ⟨front, htext, rfl⟩ := h
  obtain ⟨before, after, rfl, hoffset⟩ := Line.exists_of_mem_ofText hl
  have hstart : ((l.mark (front.length + 1)).span w.length).start.offset.toNat =
      (before ++ front).length := by
    simp only [Mark.span, Span.onLine, Line.mark, List.length_append]
    omega
  have hstop : ((l.mark (front.length + 1)).span w.length).stop.offset.toNat =
      (before ++ front).length + w.length := by
    simp only [Mark.span, Span.onLine, Line.mark, List.length_append]
    omega
  have htext' : before ++ l.text ++ after = (before ++ front) ++ (w ++ (back ++ after)) := by
    rw [htext]
    simp
  rw [Span.slice, hstart, hstop, Text.slice, htext', List.drop_left, Nat.add_sub_cancel_left,
    List.take_left]

theorem Before.denotes (h : m.Before l w back) (hl : l ∈ Line.ofText s) :
    (m.span w.length).Denotes s w :=
  ⟨l, hl, h.within, h.slice_span hl⟩

end Mark

/-! ## What a line says -/

/-- The line says `before` and then, from the mark to its end, `w`. -/
def Line.Reads (l : Line) (before : Text) (m : Mark) (w : Text) : Prop :=
  w ≠ [] ∧ EndsSolid w ∧ ∃ front back, Blank front ∧ Blank back ∧
    l.text = front ++ (before ++ w) ++ back ∧ m = l.mark (front.length + before.length + 1)

namespace Line.Reads

theorem right (h : l.Reads before m (u ++ v)) (hv : v ≠ []) :
    l.Reads (before ++ u) (m.right u.length) v := by
  obtain ⟨-, hends, front, back, hfront, hback, htext, rfl⟩ := h
  refine ⟨hv, EndsSolid.of_append hends, front, back, hfront, hback, by simpa using htext, ?_⟩
  simp only [Line.mark, Mark.right, List.length_append, Mark.mk.injEq, true_and, and_true]
  omega

theorem exists_before (h : l.Reads before m w) : ∃ back, Blank back ∧ m.Before l w back := by
  obtain ⟨-, -, front, back, -, hback, htext, rfl⟩ := h
  exact ⟨back, hback, front ++ before, by simpa using htext, by rw [List.length_append]⟩

theorem trimmed (h : l.Reads before m w) (hw : StartsSolid w) : Trimmed w := ⟨h.1, hw, h.2.1⟩

/-- What is left of the line without the blanks around it. -/
theorem trim_text (h : l.Reads before m w) (hw : StartsSolid (before ++ w)) :
    trim l.text = before ++ w := by
  obtain ⟨hne, hends, front, back, hfront, hback, htext, -⟩ := h
  have htrimmed : Trimmed (before ++ w) := ⟨by simp [hne], hw, hends.append hne⟩
  rw [htext, htrimmed.trim_between hfront hback]

theorem ends (h : l.Reads before m w) (hl : l ∈ Line.ofText s) (hb : StartsSolid (before ++ w))
    (hw : StartsSolid w) : (m.span w.length).Ends s before w := by
  obtain ⟨back, -, hm⟩ := h.exists_before
  exact ⟨l, hl, hm.within, hm.slice_span hl, h.trimmed hw, h.trim_text hb⟩

end Line.Reads

/-- A line whose margin is in order says its content behind the margin. -/
theorem Margin.reads_ofLine {level : Nat} {content : Text}
    (h : Margin.ofLine l.text = .level level content) :
    l.Reads [] (l.mark (2 * level + 1)) content := by
  obtain ⟨hspaces, rfl, hblank, -⟩ := Margin.ofLine_level h
  obtain ⟨htext, -⟩ := Margin.eq_replicate_append l.text
  obtain ⟨back, hback, hdrop⟩ := exists_trimEnd (l.text.drop (spaces l.text))
  have hfront : Blank (List.replicate (spaces l.text) ' ') := blank_replicate _
  refine ⟨?_, endsSolid_trimEnd _, List.replicate (spaces l.text) ' ', back, hfront, hback, ?_, ?_⟩
  · intro hnil
    apply hblank
    rw [htext]
    intro c hc
    rcases List.mem_append.mp hc with hc | hc
    · exact hfront c hc
    · exact trimEnd_eq_nil_iff.mp hnil c hc
  · rw [List.nil_append, List.append_assoc, ← hdrop]
    exact htext
  · rw [hspaces, List.length_replicate, List.length_nil, Nat.add_zero]

/-! ## Where diagnostics are reported -/

namespace Diagnostic

/-- The diagnostic is about some of the `n` characters behind a mark. -/
def Among (m : Mark) (n : Nat) (d : Diagnostic) : Prop :=
  ∃ k j, 0 < j ∧ k + j ≤ n ∧ d.span = some ((m.right k).span j)

theorem Among.of_right (h : d.Among (m.right k) n) : d.Among m (k + n) := by
  obtain ⟨i, j, hj, hle, hspan⟩ := h
  exact ⟨k + i, j, hj, by omega, by rw [hspan, Mark.right_right]⟩

theorem Among.mono (h : d.Among m k) (hk : k ≤ n) : d.Among m n := by
  obtain ⟨i, j, hj, hle, hspan⟩ := h
  exact ⟨i, j, hj, by omega, hspan⟩

/-- What is reported about a text that is not empty is about its characters. -/
theorem among_diagnose (m : Mark) (p : Problem) (hk : k ≤ n) (hn : 0 < n) :
    (m.diagnose p k).Among m n :=
  ⟨0, max k 1, by omega, by omega, rfl⟩

theorem Rejects.among {line : Text} (h : d.Rejects m line) (hne : line ≠ []) :
    d.Among m line.length := by
  obtain ⟨p, -, rfl⟩ := h
  exact among_diagnose m p le_rfl (List.length_pos_iff.mpr hne)

/-- The diagnostic is about some characters of a line. -/
def Inside (s : Text) (d : Diagnostic) : Prop :=
  ∃ l ∈ Line.ofText s, ∃ span : Span, d.span = some span ∧ span.Within l ∧
    0 ≤ span.start.offset ∧ span.start.offset < span.stop.offset ∧ span.stop.offset ≤ s.length

/-- A dot ends a line, and the missing class is reported behind it. -/
def Dangles (s : Text) (d : Diagnostic) : Prop :=
  ∃ l ∈ Line.ofText s, l.text.getLast? = some '.' ∧
    d = (l.mark (l.text.length + 1)).diagnose .className 1

/-- The diagnostic is about some of the characters from a mark on, or about the class that is
missing behind the last of them, which is a dot. -/
def About (m : Mark) (w : Text) (d : Diagnostic) : Prop :=
  d.Among m w.length ∨
    w.getLast? = some '.' ∧ d = (m.right w.length).diagnose .className 1

/-- What is reported among characters has a span of some of them. -/
theorem Among.exists_before (h : d.Among m w.length) (hm : m.Before l w back) :
    ∃ (m' : Mark) (v back' : Text), v ≠ [] ∧ m'.Before l v back' ∧
      d.span = some (m'.span v.length) := by
  obtain ⟨k, j, hj, hle, hspan⟩ := h
  have hw : w = w.take k ++ ((w.drop k).take j ++ (w.drop k).drop j) := by
    rw [List.take_append_drop, List.take_append_drop]
  have hk : (w.take k).length = k := by rw [List.length_take]; omega
  have hlength : ((w.drop k).take j).length = j := by
    rw [List.length_take, List.length_drop]
    omega
  rw [hw] at hm
  have hm' := hm.right.left
  rw [hk] at hm'
  refine ⟨m.right k, (w.drop k).take j, _, ?_, hm', by rw [hlength, hspan]⟩
  intro hnil
  rw [hnil] at hlength
  simp only [List.length_nil] at hlength
  omega

theorem inside_of_before (hm : m.Before l w back) (hl : l ∈ Line.ofText s) (hw : w ≠ [])
    (hd : d.span = some (m.span w.length)) : d.Inside s := by
  refine ⟨l, hl, _, hd, hm.within, ?_⟩
  obtain ⟨front, htext, rfl⟩ := hm
  obtain ⟨before, after, rfl, hoffset⟩ := Line.exists_of_mem_ofText hl
  have hlength := congrArg List.length htext
  have hpos := List.length_pos_iff.mpr hw
  simp only [List.length_append] at hlength
  simp only [Mark.span, Span.onLine, Line.mark, List.length_append]
  omega

theorem Among.inside (h : d.Among m w.length) (hm : m.Before l w back) (hl : l ∈ Line.ofText s) :
    d.Inside s := by
  obtain ⟨m', v, back', hv, hm', hd⟩ := h.exists_before hm
  exact inside_of_before hm' hl hv hd

theorem About.right (h : d.About (m.right u.length) w) : d.About m (u ++ w) := by
  rcases h with h | ⟨hdot, rfl⟩
  · exact Or.inl (h.of_right.mono (by rw [List.length_append]))
  · refine Or.inr ⟨?_, by rw [Mark.right_right, List.length_append]⟩
    rw [List.getLast?_append, hdot]
    rfl

/-- Behind the last dot stand the blanks that end the line, if there are any. -/
theorem About.placed (h : d.About m w) (hm : l.Reads before m w) (hl : l ∈ Line.ofText s) :
    d.Inside s ∨ d.Dangles s := by
  obtain ⟨back, -, hbefore⟩ := hm.exists_before
  rcases h with h | ⟨hdot, rfl⟩
  · exact Or.inl (h.inside hbefore hl)
  · cases back with
    | nil =>
      right
      obtain ⟨front, htext, rfl⟩ := hbefore
      refine ⟨l, hl, ?_, ?_⟩
      · rw [htext, List.append_nil, List.getLast?_append, hdot]
        rfl
      · congr 1
        simp only [htext, Line.mark, Mark.right, List.length_append, Mark.mk.injEq, true_and,
          and_true, List.append_nil]
        omega
    | cons c back =>
      left
      have hblank : (m.right w.length).Before l [c] back := by
        obtain ⟨front, htext, rfl⟩ := hbefore
        refine ⟨front ++ w, by simpa using htext, ?_⟩
        simp only [Line.mark, Mark.right, List.length_append, Mark.mk.injEq, true_and, and_true]
        omega
      exact inside_of_before hblank hl (by simp) rfl

end Diagnostic

end Offside
