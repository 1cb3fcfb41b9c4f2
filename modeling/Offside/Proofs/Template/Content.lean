import Offside.Proofs.Template.Growth
import Offside.Proofs.Template.Respace

/-! Formatting loses nothing that can be seen. What is written of a template has the ink of its
regions, and putting white space in order keeps all ink. -/
namespace Offside

open Text

namespace Template

variable {t : Template}

theorem flatMap_ink_intercalate (ss : List (List Text)) :
    ([([] : Text)].intercalate ss).flatMap ink = ss.flatMap fun ls => ls.flatMap ink := by
  induction ss with
  | nil => rfl
  | cons ls ss ih =>
    cases ss with
    | nil => simp
    | cons ls' ss =>
      rw [List.intercalate_cons_cons, List.flatMap_append, List.flatMap_append, ih]
      simp

theorem ink_field {f : PropsField} (h : IsField f) (o : Layout) :
    ink (f.written o) = f.name ++ (if f.optional then ['?'] else []) ++ ':' :: ink f.typeText := by
  have hname := ink_of_solid (solid_of_isIdentifier h.name)
  have hcolon : ink (if o.spacedProps then [':', ' '] else [':']) = [':'] := by split <;> rfl
  have hquestion : ink (if f.optional then ['?'] else []) = if f.optional then ['?'] else [] := by
    split <;> rfl
  simp only [PropsField.written, ink_append, hname, hcolon, hquestion, List.append_assoc,
    List.singleton_append]

theorem ink_alias {a : ClassAlias} (h : IsAlias a) :
    ink a.written = a.name ++ '=' :: a.classes.flatMap ('.' :: ·) := by
  have hname := ink_of_solid (solid_of_isIdentifier h.name)
  have hclasses := ink_of_solid (ClassAlias.solid_right h)
  have hequals : ink [' ', '=', ' '] = ['='] := rfl
  simp only [ClassAlias.written, ink_append, hname, hclasses, hequals, List.append_assoc,
    List.singleton_append]

/-- What is written of a template shows its regions one after the other. -/
theorem ink_write (h : t.HeaderStands) (o : Layout) : ink (t.write o) =
    t.inkOf .id ++ t.inkOf .props ++ t.inkOf .classes ++ t.inkOf .body := by
  have hid : ((t.writtenId?.map fun id => [['#', 'i', 'd', ' '] ++ id]).toList).flatMap
      (fun ls => ls.flatMap ink) = t.inkOf .id := by
    rw [h.writtenId?_eq, inkOf]
    rcases h.id with ⟨hraw, -⟩ | ⟨v, hraw, hv, -⟩
    · simp [hraw]
    · have hspace : ink ['#', 'i', 'd', ' '] = ['#', 'i', 'd'] := rfl
      rw [hraw, Option.map_some, Option.toList_some, List.flatMap_singleton, List.flatMap_singleton,
        ink_append, hspace, ink_of_solid (TemplateId.solid_of_isValid hv)]
      rfl
  have hprops : ((t.props.map (PropsBlock.lines o)).toList).flatMap (fun ls => ls.flatMap ink) =
      t.inkOf .props := by
    cases hp : t.props with
    | none => simp [inkOf, hp]
    | some p =>
      have hhead : ink ['p', 'r', 'o', 'p', 's'] = ['p', 'r', 'o', 'p', 's'] := rfl
      simp only [inkOf, hp, Option.map_some, Option.toList_some, List.flatMap_nil,
        PropsBlock.lines_eq, List.flatMap_cons, hhead, Option.elim, List.flatMap_map,
        List.append_nil]
      congr 1
      refine List.flatMap_congr fun f hf => ?_
      rw [ink_append, indentation, ink_replicate, ink_field (h.fields p hp f hf), List.nil_append]
  have haliases : ((t.aliases.map (AliasBlock.lines o)).toList).flatMap
      (fun ls => ls.flatMap ink) = t.inkOf .classes := by
    cases hb : t.aliases with
    | none => simp [inkOf, hb]
    | some b =>
      have hhead : ink ['c', 'l', 'a', 's', 's', 'e', 's'] = ['c', 'l', 'a', 's', 's', 'e', 's'] :=
        rfl
      simp only [inkOf, hb, Option.map_some, Option.toList_some, List.flatMap_nil,
        AliasBlock.lines_eq, List.flatMap_cons, hhead, Option.elim, List.flatMap_map,
        List.append_nil]
      congr 1
      refine List.flatMap_congr fun a ha => ?_
      rw [ink_append, indentation, ink_replicate, ink_alias (h.aliases b hb a ha), List.nil_append]
  have hbody : (if t.children.isEmpty then [] else [Node.linesOf o 0 t.children]).flatMap
      (fun ls => ls.flatMap ink) = t.inkOf .body := by
    rw [inkOf, ← Node.ink_linesOf o t.children 0 0 none]
    split
    · next he =>
      rw [List.isEmpty_iff.mp he]
      rfl
    · rw [List.flatMap_singleton]
  rw [write, ink_endLines, lines, flatMap_ink_intercalate, sections, List.flatMap_append,
    List.flatMap_append, List.flatMap_append, hid, hprops, haliases, hbody]

end Template

/-- Putting white space in order keeps all ink, and writing a template anew sorts it by regions. -/
theorem ink_text_format (o : Layout) (s : Text) : ink (format o s).text =
    if (format o s).respaced then ink s
    else [Region.id, .props, .classes, .body].flatMap fun r => (r.linesIn s).flatMap r.shown := by
  rw [format]
  by_cases herrors : (Template.read s).hasErrors = true
  · rw [if_pos herrors, if_pos rfl]
    exact Respace.ink_text o.indentSize s
  · have hnil : (Template.read s).diagnostics = [] := by
      by_contra hne
      exact herrors ((Template.hasErrors_read s).mpr hne)
    have hsound := Template.sound_outline (s := s) (Outliner.yields_true _)
    obtain ⟨hink, -⟩ := (Template.outline_spec s).2 (List.append_eq_nil_iff.mp hnil).1
    rw [if_neg herrors, if_neg (by simp)]
    have hwrite := Template.ink_write hsound.header o
    rw [hink, hink, hink, hink] at hwrite
    refine hwrite.trans ?_
    simp

/-- Formatting never loses content. If the white space is put in order, all ink stays where it is;
otherwise the ink of the lines is sorted by regions, and an alias may get its first dot. What comes
out where lines can be indented is no other document. -/
theorem ink_format (o : Layout) (s : Text) :
    (ink (format o s).text =
      if (format o s).respaced then ink s
      else [Region.id, .props, .classes, .body].flatMap fun r => (r.linesIn s).flatMap r.shown) ∧
      ∀ f, format? o s = .ok f → ink f.text =
        if f.respaced then ink s
        else [Region.id, .props, .classes, .body].flatMap fun r =>
          (r.linesIn s).flatMap r.shown := by
  refine ⟨ink_text_format o s, fun f hf => ?_⟩
  obtain ⟨-, rfl⟩ := format?_eq_ok.mp hf
  exact ink_text_format o s

/-- A header with an alias without its dot, in front of an id. -/
def unsortedSource : Text := "classes\n  a = b.c\n#id n\np.$a | x y\n".toList

theorem ink_format_unsortedSource : ∃ f, format? {} unsortedSource = .ok f ∧
    f.respaced = false ∧ ink f.text = "#idnclassesa=.b.cp.$a|xy".toList := by
  have hf : format? {} unsortedSource = .ok (format {} unsortedSource) :=
    format?_eq_ok.mpr ⟨by decide, rfl⟩
  have hrespaced : (format {} unsortedSource).respaced = false := by decide +kernel
  refine ⟨_, hf, hrespaced, ?_⟩
  rw [(ink_format {} unsortedSource).2 _ hf, hrespaced]
  decide +kernel

end Offside
