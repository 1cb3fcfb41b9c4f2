import Offside.Export
import Offside.Proofs.Config
import Offside.Proofs.Ir.Lowering
import Offside.Proofs.Template.Convergence
import Offside.Report

/-! Which layouts keep a template. A level is two spaces when a template is read, whatever it was
when it was written. So a layout with another indent keeps only the templates that it writes without
one, and two spaces are the only indent that keeps them all. -/
namespace Offside

open Text

variable {o : Layout} {s : Text} {t u : Template}

/-- Formatting keeps a document: it can be written, and it is read from that as the same template,
without a report. -/
def Layout.Keeps (o : Layout) (s : Text) : Prop :=
  ∃ f, format? o s = .ok f ∧ (Template.read f.text).diagnostics = [] ∧
    (Template.read f.text).template.same (Template.read s).template = true

namespace Template

theorem emptyBodies_eq_nil (h : t.bare = u.bare) (hu : u.emptyBodies = []) :
    t.emptyBodies = [] := by
  have hchildren : Node.bareList t.children = Node.bareList u.children :=
    (bare_eq_iff.mp h).2
  have hcodes : t.emptyBodies.map Diagnostic.code = u.emptyBodies.map Diagnostic.code := by
    rw [codes_emptyBodies, codes_emptyBodies, ← Node.length_emptyBranchesIn_bare,
      ← Node.length_emptyLoopsIn_bare, hchildren, Node.length_emptyBranchesIn_bare,
      Node.length_emptyLoopsIn_bare]
  rw [hu] at hcodes
  exact List.map_eq_nil_iff.mp hcodes

/-- A template that was read without a report stands. -/
theorem stands_of_nil (h : (read s).diagnostics = []) :
    (read s).template.HeaderStands ∧ ∀ n ∈ (read s).template.children, n.Stands Pipe.Readable := by
  have hsound := sound_outline (s := s)
    (Pipe.yields_readable fun d hd => by simp [(List.append_eq_nil_iff.mp h).1] at hd)
  exact ⟨hsound.header, Outline.lined_nil.mp hsound.children⟩

/-- Two spaces keep a template. -/
theorem read_write_two (h : (read s).diagnostics = []) (ho : o.indentSize = 2) :
    (read ((read s).template.write o)).diagnostics = [] ∧
      (read ((read s).template.write o)).template.bare = (read s).template.bare := by
  obtain ⟨hheader, hchildren⟩ := stands_of_nil h
  obtain ⟨hbare, hdiagnostics⟩ := read_write_bare hheader hchildren ho
  refine ⟨?_, hbare⟩
  rw [hdiagnostics]
  exact emptyBodies_eq_nil hbare (List.append_eq_nil_iff.mp h).2

/-- Another indent keeps a template only if it does not come to bear. -/
theorem write_eq_of_read_write (h : (read s).diagnostics = [])
    (hnil : (read ((read s).template.write o)).diagnostics = [])
    (hbare : (read ((read s).template.write o)).template.bare = (read s).template.bare) :
    (read s).template.write o = (read s).template.write (o.sized 2) := by
  by_cases ho : o.indentSize = 2
  · rw [Layout.sized, ← ho]
  · obtain ⟨hheader, hchildren⟩ := stands_of_nil h
    obtain ⟨-, -, hflush, hread⟩ := read_write_flat hheader hchildren ho hnil
    have hsame : Node.bareList (read ((read s).template.write o)).template.children =
        Node.bareList (read s).template.children := (bare_eq_iff.mp hbare).2
    rw [← Node.flush_bareList, hsame, Node.flush_bareList] at hread
    exact (write_sized hflush hread o 2).symm

end Template

namespace Layout

/-- A layout keeps a template if it writes the same as with two spaces to a level. -/
theorem keeps_iff (h : (Template.read s).diagnostics = []) :
    o.Keeps s ↔ checkIndent o.indentSize = .ok () ∧
      (format o s).text = (format (o.sized 2) s).text := by
  rw [format_of_nil h, format_of_nil h]
  constructor
  · rintro ⟨f, hf, hnil, hsame⟩
    obtain ⟨hcheck, rfl⟩ := format?_eq_ok.mp hf
    rw [format_of_nil h] at hnil hsame
    exact ⟨hcheck, Template.write_eq_of_read_write h hnil ((Template.same_iff _ _).mp hsame)⟩
  · rintro ⟨hcheck, htext⟩
    obtain ⟨hnil, hbare⟩ := Template.read_write_two (o := o.sized 2) h rfl
    refine ⟨format o s, format?_eq_ok.mpr ⟨hcheck, rfl⟩, ?_⟩
    rw [format_of_nil h, htext]
    exact ⟨hnil, (Template.same_iff _ _).mpr hbare⟩

/-- What is kept is exported and reported on as before. -/
theorem Keeps.results_eq {f : Formatted} (h : o.Keeps s) (hs : (Template.read s).diagnostics = [])
    (hf : format? o s = .ok f) :
    (∀ target e, exportTemplate? f.text target e = exportTemplate? s target e) ∧
      ∀ file, Report.make file (Template.read f.text).template.id
          (Template.read f.text).diagnostics =
        Report.make file (Template.read s).template.id (Template.read s).diagnostics := by
  obtain ⟨g, hg, hnil, hsame⟩ := h
  obtain rfl : g = f := Except.ok.inj (hg.symm.trans hf)
  have hbare := (Template.same_iff _ _).mp hsame
  constructor
  · intro target e
    have hnodes : Ir.ofTemplate (Template.read g.text).template =
        Ir.ofTemplate (Template.read s).template := by
      rw [← Ir.ofTemplate_bare, hbare, Ir.ofTemplate_bare]
    simp only [exportTemplate?, exportTemplate, Reading.hasErrors, hnil, hs, hnodes]
  · intro file
    have hid : (Template.read g.text).template.bare.id = (Template.read s).template.bare.id := by
      rw [hbare]
    rw [hnil, hs]
    exact congrArg (Report.make file · []) hid

/-! ## The indents that keep all templates -/

/-- The element in an element, as it is written with any indent. -/
theorem write_nestedSource (o : Layout) :
    (Template.read nestedSource).template.write o =
      ['d', 'i', 'v', '\n'] ++ (indentation o.indentSize 1 ++ ['p', '\n']) := by
  have hsame : (Template.read nestedSource).template.same
      ⟨none, none, none, none, none,
        [.element ['d', 'i', 'v'] [] [.element ['p'] [] [] none] none], none⟩ = true := by
    decide +kernel
  rw [Template.write_eq ((Template.same_iff _ _).mp hsame)]
  simp [Template.write, Template.lines, Template.sections, Template.writtenId?, Node.linesOf,
    Node.lines, Node.writeSelector, endLines, unlines, indentation_zero]

theorem nil_nestedSource : (Template.read nestedSource).diagnostics = [] := by decide +kernel

theorem indentSize_of_keeps_nestedSource (h : o.Keeps nestedSource) : o.indentSize = 2 := by
  have htext := ((keeps_iff nil_nestedSource).mp h).2
  rw [format_of_nil nil_nestedSource, format_of_nil nil_nestedSource, write_nestedSource,
    write_nestedSource] at htext
  have hlength := congrArg List.length htext
  simp [indentation, sized] at hlength
  omega

/-- A configuration can set any indent that is not negative. Of a template that is read without a
report, a layout keeps everything if it writes the same as with two spaces to a level, and then the
template is exported and reported on as before. Only two spaces keep every such template. -/
theorem keeps_all_iff (o : Layout) :
    ((∃ v settings, Config.ofValue v = .ok settings ∧ settings.format = o) ↔ 0 ≤ o.indentSize) ∧
      (∀ s, (Template.read s).diagnostics = [] →
        (o.Keeps s ↔ checkIndent o.indentSize = .ok () ∧
          (format o s).text = (format (o.sized 2) s).text) ∧
        (o.Keeps s → ∀ f, format? o s = .ok f →
          (∀ target e, exportTemplate? f.text target e = exportTemplate? s target e) ∧
            ∀ file, Report.make file (Template.read f.text).template.id
                (Template.read f.text).diagnostics =
              Report.make file (Template.read s).template.id (Template.read s).diagnostics)) ∧
      ((∀ s, (Template.read s).diagnostics = [] → o.Keeps s) ↔ o.indentSize = 2) := by
  refine ⟨Config.exists_ofValue_iff, ?_, ?_⟩
  · intro s hs
    exact ⟨keeps_iff hs, fun h f hf => h.results_eq hs hf⟩
  · constructor
    · intro h
      exact indentSize_of_keeps_nestedSource (h nestedSource nil_nestedSource)
    · intro ho s hs
      have hcheck : checkIndent 2 = .ok () := by decide
      rw [keeps_iff hs, ho, sized, ← ho]
      exact ⟨ho ▸ hcheck, rfl⟩

/-- A configuration with four spaces to a level is accepted, and an element in an element is not
kept by it. -/
theorem not_keeps_nestedSource :
    ∃ v settings, Config.ofValue v = .ok settings ∧ settings.format = { indentSize := 4 } ∧
      (Template.read nestedSource).diagnostics = [] ∧ ¬ settings.format.Keeps nestedSource := by
  refine ⟨_, _, Config.ofValue_layoutMembers (o := { indentSize := 4 }) (by decide), rfl,
    nil_nestedSource, ?_⟩
  intro h
  have hfour : (4 : Int) = 2 := indentSize_of_keeps_nestedSource h
  omega

end Layout

end Offside
