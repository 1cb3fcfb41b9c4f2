import Offside.Proofs.Template.Flat
import Offside.Proofs.Template.Respace
import Offside.Proofs.Template.RoundTrip

/-! Formatting settles. What is written of a template stays as it is when it is formatted, whether
it can be read again or not, and text whose white space is in order stays as it is or is read. -/
namespace Offside

open Text

variable {o : Layout} {t u : Template} {s : Text} {P Q : List Part → Prop}

theorem format_of_nil (h : (Template.read s).diagnostics = []) :
    (format o s).text = (Template.read s).template.write o := by
  have herrors : ¬ (Template.read s).hasErrors = true := fun he =>
    (Template.hasErrors_read s).mp he h
  rw [format, if_neg herrors]

theorem format_of_ne_nil (h : (Template.read s).diagnostics ≠ []) :
    (format o s).text = Respace.text o.indentSize s := by
  rw [format, if_pos ((Template.hasErrors_read s).mpr h)]

namespace Template

theorem sections_congr (hheader : t.header.bare = u.header.bare)
    (hlines : Node.linesOf o 0 t.children = Node.linesOf o 0 u.children)
    (ht : ∀ n ∈ t.children, n.Stands P) (hu : ∀ n ∈ u.children, n.Stands Q) :
    t.sections o = u.sections o := by
  have hempty : t.children.isEmpty = u.children.isEmpty := by
    rw [Bool.eq_iff_iff, List.isEmpty_iff, List.isEmpty_iff, ← Node.linesOf_eq_nil ht,
      ← Node.linesOf_eq_nil hu, hlines]
  have hsections : t.header.sections o = u.header.sections o := by
    rw [← sections_bare o t.header, hheader, sections_bare]
  rw [sections_eq o t, sections_eq o u, hsections, hlines, hempty]

theorem write_congr (h : t.sections o = u.sections o) : t.write o = u.write o := by
  rw [write, write, lines, lines, h]

/-- What is written with another indent than two spaces and read without a report leaves the same
lines again, and nothing in it is below a line. -/
theorem read_write_flat (h : t.HeaderStands) (hc : ∀ n ∈ t.children, n.Stands Pipe.Readable)
    (ho : o.indentSize ≠ 2) (hnil : (read (t.write o)).diagnostics = []) :
    (read (t.write o)).template.header.bare = t.header.bare ∧
      Node.linesOf o 0 (read (t.write o)).template.children = Node.linesOf o 0 t.children ∧
      t.HeaderFlush ∧ ∀ n ∈ (read (t.write o)).template.children, n.Flush := by
  have hlaid := laid_sections h hc o
  obtain ⟨ls, span, hls, houtline⟩ := exists_outline_write hlaid
  have hclean := (List.append_eq_nil_iff.mp hnil).1
  have hread : (read (t.write o)).template = (outline (unifyNewlines (t.write o))).template := rfl
  rw [houtline] at hclean hread
  rw [hread]
  exact Outliner.read_flat h hc ho span (unbroken_of_laid hlaid hls) hls hclean

/-- What is written of a template and read without a report is written again. -/
theorem write_read_write (h : t.HeaderStands) (hc : ∀ n ∈ t.children, n.Stands Pipe.Readable)
    (hnil : (read (t.write o)).diagnostics = []) :
    (read (t.write o)).template.write o = t.write o := by
  by_cases ho : o.indentSize = 2
  · exact write_eq (read_write_bare h hc ho).1 o
  · have hstands := Outline.lined_nil.mp
      (sound_outline (s := t.write o) (Outliner.yields_true _)).children
    obtain ⟨hheader, hlines, -, -⟩ := read_write_flat h hc ho hnil
    exact write_congr (sections_congr hheader hlines hstands hc)

theorem unit_dvd (size : Int) (level : Nat) : Respace.unit size ∣ size.toNat * level := by
  rw [Respace.unit]
  by_cases hsize : 1 ≤ size
  · rw [Int.max_eq_right hsize]
    exact Nat.dvd_mul_right ..
  · have hzero : size.toNat = 0 := by omega
    simp [hzero]

/-- The lines of a template that stands are in order. -/
theorem settled_lines (h : t.HeaderStands) (hc : ∀ n ∈ t.children, n.Stands Pipe.Readable) :
    ∀ line ∈ t.lines o, Unbroken line ∧ Respace.Settled (Respace.unit o.indentSize) line := by
  intro line hline
  rcases mem_intercalate hline with rfl | hline
  · exact ⟨by simp [Unbroken], Respace.settled_nil⟩
  · have hlaid := laid_sections h hc o line hline
    refine ⟨hlaid.unbroken, ?_⟩
    obtain ⟨level, c, rfl, htrim, hone⟩ := hlaid
    exact Respace.settled_replicate htrim hone (unit_dvd ..)

/-- What is written of a template is not changed by formatting. -/
theorem format_write (h : t.HeaderStands) (hc : ∀ n ∈ t.children, n.Stands Pipe.Readable) :
    (format o (t.write o)).text = t.write o := by
  by_cases hnil : (read (t.write o)).diagnostics = []
  · rw [format_of_nil hnil]
    exact write_read_write h hc hnil
  · have hsettled := settled_lines (o := o) h hc
    rw [format_of_ne_nil hnil, write]
    exact Respace.text_endLines (fun line hline => (hsettled line hline).1)
      fun line hline => (hsettled line hline).2

end Template

/-- In a formatted document only line feeds end lines. -/
theorem not_mem_format (o : Layout) (s : Text) : '\r' ∉ (format o s).text := by
  by_cases hnil : (Template.read s).diagnostics = []
  · have hsound := Template.sound_outline (s := s)
      (Pipe.yields_readable fun d hd => by simp [(List.append_eq_nil_iff.mp hnil).1] at hd)
    have hsettled := Template.settled_lines (o := o) hsound.header
      (Outline.lined_nil.mp hsound.children)
    rw [format_of_nil hnil, Template.write]
    exact not_mem_endLines fun line hline => (hsettled line hline).1
  · rw [format_of_ne_nil hnil, Respace.text]
    refine not_mem_unlines fun l hl => ?_
    obtain ⟨k, hk, rfl⟩ := List.mem_map.mp hl
    exact Respace.unbroken_line (unbroken_of_mem_lines hk) _

/-- A document without errors is formatted once and for all. -/
theorem format_format_of_nil (h : (Template.read s).diagnostics = []) :
    (format o (format o s).text).text = (format o s).text := by
  have hsound := Template.sound_outline (s := s)
    (Pipe.yields_readable fun d hd => by simp [(List.append_eq_nil_iff.mp h).1] at hd)
  rw [format_of_nil h]
  exact Template.format_write hsound.header (Outline.lined_nil.mp hsound.children)

theorem format_format_format (o : Layout) (s : Text) :
    (format o (format o (format o s).text).text).text = (format o (format o s).text).text := by
  by_cases hs : (Template.read s).diagnostics = []
  · rw [format_format_of_nil hs, format_format_of_nil hs]
  · obtain ⟨q, hq⟩ : ∃ q, q = (format o s).text := ⟨_, rfl⟩
    rw [← hq]
    by_cases hread : (Template.read q).diagnostics = []
    · exact format_format_of_nil hread
    · have hformat : (format o q).text = q := by
        rw [format_of_ne_nil hread, hq, format_of_ne_nil hs]
        exact Respace.text_text o.indentSize s
      rw [hformat, hformat]

/-- Formatting converges. Where white space is put in order the second time may write the template
anew; from then on nothing changes, and without errors already the second time changes nothing. A
document that has been formatted with an indent can be formatted with it again. -/
theorem format_converges (o : Layout) (s : Text) :
    (format o (format o (format o s).text).text).text = (format o (format o s).text).text ∧
      ((Template.read s).diagnostics = [] →
        (format o (format o s).text).text = (format o s).text) ∧
      ∀ f, format? o s = .ok f → ∃ g, format? o f.text = .ok g ∧
        ((Template.read s).diagnostics = [] → g.text = f.text) ∧
        ∃ k, format? o g.text = .ok k ∧ k.text = g.text := by
  refine ⟨format_format_format o s, format_format_of_nil, fun f hf => ?_⟩
  obtain ⟨hcheck, rfl⟩ := format?_eq_ok.mp hf
  exact ⟨_, format?_eq_ok.mpr ⟨hcheck, rfl⟩, format_format_of_nil, _,
    format?_eq_ok.mpr ⟨hcheck, rfl⟩, format_format_format o s⟩

def nestedSource : Text := "div\n  p\n".toList

/-- Written with four spaces to a level, it cannot be read again, and stays as it is. -/
theorem format_converges_nestedSource :
    (format { indentSize := 4 } nestedSource).respaced = false ∧
      (format { indentSize := 4 } (format { indentSize := 4 } nestedSource).text).respaced = true ∧
      (format { indentSize := 4 } (format { indentSize := 4 } nestedSource).text).text =
        (format { indentSize := 4 } nestedSource).text :=
  ⟨by decide +kernel, by decide +kernel,
    (format_converges { indentSize := 4 } nestedSource).2.1 (by decide +kernel)⟩

end Offside
