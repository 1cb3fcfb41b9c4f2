import Offside.Export
import Offside.Proofs.Markup.Program
import Offside.Proofs.Markup.Written

/-! Exporting a template and importing it again. The elements come back with their names, their
classes and their nesting, whatever characters the texts between them hold. -/
namespace Offside

open Text

variable {s : Text} {env : AliasEnv} {ns : List Offside.Node}

/-- What an import comes to has the elements of these nodes. -/
def HasElements (imported : Except Markup.SelectionError (Markup.Lowered (List Ir.Node)))
    (ns : List Ir.Node) : Prop :=
  ∃ lowered, imported = .ok lowered ∧
    Ir.Node.skeletonOf lowered.value = Ir.Node.skeletonOf ns

/-- The library's reader gives markup without expressions the tree that is prescribed, as long as
no character of code zero ends a text in it. -/
theorem Markup.prescribed_read? (h : '\x00' ∉ s) : Prescribed Program.read? s := by
  rintro k hk rfl
  exact read?_wrap hk h

/-- An element is not lost when a template is lowered. -/
theorem Ir.skeletonOf_lowerList_ne_nil (h : ns.any Offside.Node.isElement = true) :
    Ir.Node.skeletonOf (lowerList env ns) ≠ [] := by
  induction ns with
  | nil => cases h
  | cons n ns ih =>
    rw [lowerList, Ir.Node.skeletonOf_append]
    rw [List.any_cons, Bool.or_eq_true] at h
    rcases h with h | h
    · cases n with
      | element name classes children span => simp [lower, Ir.Node.ofParts, Ir.Node.skeleton]
      | text _ _ _ | expression _ _ | conditional _ _ | loop _ _ _ _ | foreign _ => cases h
    · simp [ih h]

theorem Ir.skeletonOf_ofTemplate_ne_nil {t : Template}
    (h : t.children.any Offside.Node.isElement = true) :
    Ir.Node.skeletonOf (ofTemplate t) ≠ [] := by
  rw [ofTemplate, Ir.Node.skeletonOf_append]
  exact List.append_ne_nil_of_right_ne_nil _ (skeletonOf_lowerList_ne_nil h)

theorem output_exportTemplate (h : (Template.read s).diagnostics = []) (target : Option Target)
    (o : ExportOptions) : (exportTemplate s target o).output =
      Ir.writeMarkup o.indentSize (Ir.ofTemplate (Template.read s).template) := by
  rw [exportTemplate, h]
  rfl

/-- What is exported where lines can be indented is nothing else. -/
theorem eq_exportTemplate {target : Option Target} {o : ExportOptions} {e : Exported}
    (h : exportTemplate? s target o = .ok e) : e = exportTemplate s target o := by
  rw [exportTemplate?] at h
  split at h
  · obtain ⟨⟨⟩, -, he⟩ := eq_ok_of_bind h
    exact (Except.ok.inj he).symm
  · exact (Except.ok.inj h).symm

/-- A template of elements, and of texts without expressions, is exported to markup that is
imported with the same elements: by every reader that gives the markup the tree prescribed for it,
and by the library's own reader if no text in it holds a character of code zero. Without loops and
conditionals a template that has an element has one at its top. -/
theorem skeleton_import_export (hdiagnostics : (Template.read s).diagnostics = [])
    (hstatic : (Template.read s).template.isStatic = true)
    (helement : (Template.read s).template.children.any Node.isElement = true)
    (target : Option Target) (o : ExportOptions) :
    (∀ read?, Markup.Prescribed read? (exportTemplate s target o).output →
      HasElements (importNodesWith read? (exportTemplate s target o).output)
        (Ir.ofTemplate (Template.read s).template)) ∧
    ('\x00' ∉ (exportTemplate s target o).output →
      HasElements (importNodes (exportTemplate s target o).output)
        (Ir.ofTemplate (Template.read s).template)) ∧
    ∀ e, exportTemplate? s target o = .ok e → ∀ read?, Markup.Prescribed read? e.output →
      HasElements (importNodesWith read? e.output) (Ir.ofTemplate (Template.read s).template) := by
  have hspells : Markup.Spells (exportTemplate s target o).output
      (Ir.Node.skeletonOf (Ir.ofTemplate (Template.read s).template)) := by
    rw [output_exportTemplate hdiagnostics]
    exact Markup.spells_writeMarkup (Ir.static_ofTemplate s hstatic) o.indentSize
  have hne := Ir.skeletonOf_ofTemplate_ne_nil helement
  refine ⟨fun read? hread => hspells.importNodesWith hread hne, fun hnul => ?_,
    fun e he read? hread => ?_⟩
  · exact hspells.importNodesWith (Markup.prescribed_read? hnul) hne
  · obtain rfl := eq_exportTemplate he
    exact hspells.importNodesWith hread hne

/-- Texts that markup would read as something else, beside an alias for classes. -/
def markedSource : Text :=
  ("classes\n  box = card.p-2\n" ++
    "div.$box.lead\n  | a < b && c \x7d \"<p>\"\n  span.x | x & y\nul\n").toList

theorem skeleton_import_export_markedSource :
    (Template.read markedSource).diagnostics = [] ∧
      (Template.read markedSource).template.isStatic = true ∧
      (Template.read markedSource).template.children.any Node.isElement = true ∧
      '\x00' ∉ (exportTemplate markedSource none {}).output ∧
      HasElements
        (importNodesWith Markup.Program.read? (exportTemplate markedSource none {}).output)
        (Ir.ofTemplate (Template.read markedSource).template) ∧
      HasElements (importNodes (exportTemplate markedSource none {}).output)
        (Ir.ofTemplate (Template.read markedSource).template) := by
  have hdiagnostics : (Template.read markedSource).diagnostics = [] := by decide +kernel
  have hstatic : (Template.read markedSource).template.isStatic = true := by decide +kernel
  have helement : (Template.read markedSource).template.children.any Node.isElement = true := by
    decide +kernel
  have hnul : '\x00' ∉ (exportTemplate markedSource none {}).output := by decide +kernel
  obtain ⟨hany, hown, -⟩ := skeleton_import_export hdiagnostics hstatic helement none {}
  exact ⟨hdiagnostics, hstatic, helement, hnul, hany _ (Markup.prescribed_read? hnul), hown hnul⟩

end Offside
