import Offside.Proofs.Template.Heading

/-! Reading what is written of a template that was read gives the template again. -/
namespace Offside

open Text

/-- A line as it is written: a margin of whole levels, and a text without blanks around it. -/
def Laid (o : Layout) (line : Text) : Prop :=
  ∃ level c, line = indentation o.indentSize level ++ c ∧ Trimmed c ∧ OneLine c

namespace Laid

variable {o : Layout} {line c : Text}

theorem unbroken (h : Laid o line) : Unbroken line := by
  obtain ⟨level, c, rfl, -, hone⟩ := h
  exact Margin.unbroken_of_oneLine hone _

theorem not_blank (h : Laid o line) : ¬ Blank line := by
  obtain ⟨level, c, rfl, htrim, -⟩ := h
  exact Margin.not_blank_of_trimmed htrim _

theorem of_trimmed (h : Trimmed c) (hone : OneLine c) (o : Layout) : Laid o c :=
  ⟨0, c, by simp [indentation], h, hone⟩

end Laid

variable {o : Layout} {t : Template} {s : Text}

/-- The lines of nodes that stand. -/
theorem laid_linesOf {ns : List Node} (h : ∀ n ∈ ns, n.Stands Pipe.Readable) (o : Layout)
    (level : Nat) : ∀ line ∈ Node.linesOf o level ns, Laid o line := by
  intro line hline
  rw [Node.linesOf_eq_entries] at hline
  obtain ⟨p, hp, hline⟩ := List.mem_flatMap.mp hline
  obtain ⟨opens, hstand⟩ := Node.stands_entriesIn o ns level h p hp
  obtain ⟨c, hw⟩ := Entry.exists_written hstand o
  rw [hw.lines] at hline
  obtain rfl := List.mem_singleton.mp hline
  exact ⟨p.1, c, rfl, hw.trimmed, hw.oneLine⟩

namespace Template

/-- The lines of a template that stands. -/
theorem laid_sections (h : t.HeaderStands) (hc : ∀ n ∈ t.children, n.Stands Pipe.Readable)
    (o : Layout) : ∀ line ∈ (t.sections o).flatten, Laid o line := by
  intro line hline
  rw [sections, List.flatten_append, List.flatten_append, List.flatten_append,
    h.writtenId?_eq] at hline
  simp only [List.mem_append] at hline
  rcases hline with ((hid | hprops) | haliases) | hbody
  · rcases h.id with ⟨hraw, -⟩ | ⟨v, hraw, hv, -⟩
    · simp [hraw] at hid
    · obtain rfl : line = ['#', 'i', 'd', ' '] ++ v := by simpa [hraw] using hid
      obtain ⟨htrim, hone⟩ := TemplateId.trimmed_written hv
      exact Laid.of_trimmed htrim hone o
  · cases hp : t.props with
    | none => simp [hp] at hprops
    | some p =>
      rw [hp, Option.map_some, PropsBlock.lines_eq, Option.toList_some,
        List.flatten_singleton] at hprops
      rcases List.mem_cons.mp hprops with rfl | hfield
      · exact Laid.of_trimmed (solid_props.trimmed (by simp)) solid_props.oneLine o
      · obtain ⟨f, hf, rfl⟩ := List.mem_map.mp hfield
        obtain ⟨htrim, hone⟩ := PropsField.trimmed_written (h.fields p hp f hf) o
        exact ⟨1, f.written o, rfl, htrim, hone⟩
  · cases hb : t.aliases with
    | none => simp [hb] at haliases
    | some b =>
      rw [hb, Option.map_some, AliasBlock.lines_eq, Option.toList_some,
        List.flatten_singleton] at haliases
      rcases List.mem_cons.mp haliases with rfl | halias
      · exact Laid.of_trimmed (solid_classes.trimmed (by simp)) solid_classes.oneLine o
      · obtain ⟨a, ha, rfl⟩ := List.mem_map.mp halias
        obtain ⟨htrim, hone⟩ := ClassAlias.trimmed_written (h.aliases b hb a ha)
        exact ⟨1, a.written, rfl, htrim, hone⟩
  · split at hbody
    · cases hbody
    · exact laid_linesOf hc o 0 line (by simpa using hbody)

/-- A line of sections put together is empty or one of theirs. -/
theorem mem_intercalate {ss : List (List Text)} {line : Text}
    (h : line ∈ [([] : Text)].intercalate ss) : line = [] ∨ line ∈ ss.flatten := by
  induction ss with
  | nil => cases h
  | cons ls ss ih =>
    cases ss with
    | nil => exact Or.inr (by simpa using h)
    | cons ls' ss =>
      rw [List.intercalate_cons_cons, List.mem_append, List.mem_append] at h
      rcases h with (h | h) | h
      · exact Or.inr (List.mem_append_left _ h)
      · exact Or.inl (List.mem_singleton.mp h)
      · exact (ih h).imp_right (List.mem_append_right ls)

/-- An empty line between sections separates them, and no section has one. -/
theorem filter_intercalate {ss : List (List Text)}
    (h : ∀ line ∈ ss.flatten, line.all isBlank = false) :
    ([([] : Text)].intercalate ss).filter (!·.all isBlank) = ss.flatten := by
  have hkeep : ∀ ls : List Text, (∀ line ∈ ls, line.all isBlank = false) →
      ls.filter (!·.all isBlank) = ls := by
    intro ls hls
    rw [List.filter_eq_self]
    intro line hline
    simp only [hls line hline, Bool.not_false]
  induction ss with
  | nil => rfl
  | cons ls ss ih =>
    have hls := hkeep ls fun line hline => h line (List.mem_append_left _ hline)
    have ih := ih fun line hline => h line (List.mem_append_right _ hline)
    cases ss with
    | nil => simpa using hls
    | cons ls' ss =>
      rw [List.intercalate_cons_cons, List.filter_append, List.filter_append, hls, ih]
      simp

end Template

namespace Outliner

/-- Blank lines can be left out. -/
theorem foldl_filter (ls : List Line) (s : Outliner) :
    (ls.filter fun l => !l.text.all isBlank).foldl step s = ls.foldl step s := by
  induction ls generalizing s with
  | nil => rfl
  | cons l ls ih =>
    by_cases hb : l.text.all isBlank = true
    · have hblank : Margin.ofLine l.text = .blank :=
        Margin.ofLine_blank.mpr fun c hc => List.all_eq_true.mp hb c hc
      rw [List.filter_cons_of_neg (by simp [hb]), ih, List.foldl_cons, step, hblank]
    · rw [List.filter_cons_of_pos (by simpa using hb), List.foldl_cons, List.foldl_cons, ih]

end Outliner

namespace Template

/-- What is written of a template is read section by section. -/
theorem exists_outline_write (h : ∀ line ∈ (t.sections o).flatten, Laid o line) :
    ∃ (ls : List Line) (span : Option Span), ls.map Line.text = (t.sections o).flatten ∧
      outline (unifyNewlines (t.write o)) = ls.foldl Outliner.step (Outliner.start span) := by
  have hblank : ∀ line ∈ (t.sections o).flatten, line.all isBlank = false := by
    intro line hline
    rw [Bool.eq_false_iff]
    exact fun hb => (h line hline).not_blank fun c hc => List.all_eq_true.mp hb c hc
  have hunbroken : ∀ line ∈ t.lines o, Unbroken line := by
    intro line hline
    rcases mem_intercalate hline with rfl | hline
    · simp [Unbroken]
    · exact (h line hline).unbroken
  have hlines := lines_endLines hunbroken
  refine ⟨(Line.ofText (unifyNewlines (t.write o))).filter fun l => !l.text.all isBlank,
    some (wholeSpan (unifyNewlines (t.write o))), ?_, (Outliner.foldl_filter _ _).symm⟩
  have hfilter : (fun l : Line => !l.text.all isBlank) =
      (fun w : Text => !w.all isBlank) ∘ Line.text := rfl
  rw [hfilter, ← List.filter_map, Line.ofText, Line.map_text_numberFrom, write, hlines,
    List.filter_append]
  simp only [lines]
  rw [filter_intercalate hblank]
  simp

theorem unbroken_of_laid {ls : List Line} {ts : List Text} (h : ∀ line ∈ ts, Laid o line)
    (hls : ls.map Line.text = ts) : ∀ l ∈ ls, Unbroken l.text := fun _ hl =>
  (h _ (hls ▸ List.mem_map_of_mem hl)).unbroken

/-- A template that stands is read back from what is written of it. -/
theorem read_write_bare (h : t.HeaderStands) (hc : ∀ n ∈ t.children, n.Stands Pipe.Readable)
    (ho : o.indentSize = 2) :
    (read (t.write o)).template.bare = t.bare ∧
      (read (t.write o)).diagnostics = emptyBodies (read (t.write o)).template := by
  have hlaid := laid_sections h hc o
  obtain ⟨ls, span, hls, houtline⟩ := exists_outline_write hlaid
  obtain ⟨hbare, hnil⟩ := Outliner.read_sections h hc ho span (unbroken_of_laid hlaid hls) hls
  rw [read, houtline]
  exact ⟨hbare, by rw [hnil, List.nil_append]⟩

theorem write?_eq {P : List Part → Prop} (h : ∀ n ∈ t.children, n.Stands P)
    (ho : o.indentSize = 2) : t.write? o = .ok (t.write o) := by
  have hindent : checkIndent 2 = .ok () := by decide
  rw [write?, ho, hindent, Node.anyForeign_of_stands t.children h]
  rfl

theorem codes_emptyBodies (t : Template) : t.emptyBodies.map Diagnostic.code =
    List.replicate (Node.emptyBranchesIn t.children).length (some .emptyBranch) ++
      List.replicate (Node.emptyLoopsIn t.children).length (some .emptyFor) := by
  rw [emptyBodies, List.map_append, List.map_map, List.map_map]
  congr 1
  · exact List.map_const' ..
  · exact List.map_const' ..

/-- A template that was read without a broken expression is written, and read from that again as the
same template. Only branches and loops without a body are reported then, each of them once, and
writing the template again gives the same text. -/
theorem round_trip (s : Text) (o : Layout) (ho : o.indentSize = 2)
    (hs : ∀ d ∈ (read s).diagnostics, d.code ≠ some .invalidExpression) :
    ∃ p, (read s).template.write? o = .ok p ∧
      (read p).template.same (read s).template = true ∧
      (read p).diagnostics.map Diagnostic.code =
        List.replicate (Node.emptyBranchesIn (read s).template.children).length
          (some .emptyBranch) ++
        List.replicate (Node.emptyLoopsIn (read s).template.children).length (some .emptyFor) ∧
      ((read s).diagnostics = [] → (read p).diagnostics = []) ∧
      (read p).template.write? o = .ok p := by
  have hsound : (outline (unifyNewlines s)).Sound Pipe.Readable :=
    sound_outline (Pipe.yields_readable fun d hd => hs d (List.mem_append_left _ hd))
  have hstands : ∀ n ∈ (read s).template.children, n.Stands Pipe.Readable :=
    Outline.lined_nil.mp hsound.children
  obtain ⟨p, hp⟩ : ∃ p, p = (read s).template.write o := ⟨_, rfl⟩
  obtain ⟨hbare, hnil⟩ : (read p).template.bare = (read s).template.bare ∧
      (read p).diagnostics = emptyBodies (read p).template := by
    rw [hp]
    exact read_write_bare hsound.header hstands ho
  have hagain : (read p).template.write o = p := by
    rw [write_eq hbare o, hp]
  have hstands' : ∀ n ∈ (read p).template.children, n.Stands fun _ => True :=
    Outline.lined_nil.mp (sound_outline (Outliner.yields_true _)).children
  have hcodes : (read p).diagnostics.map Diagnostic.code =
      List.replicate (Node.emptyBranchesIn (read s).template.children).length (some .emptyBranch) ++
        List.replicate (Node.emptyLoopsIn (read s).template.children).length (some .emptyFor) := by
    have hchildren : Node.bareList (read p).template.children =
        Node.bareList (read s).template.children := congrArg Template.children hbare
    rw [hnil, codes_emptyBodies, ← Node.length_emptyBranchesIn_bare,
      ← Node.length_emptyLoopsIn_bare, hchildren, Node.length_emptyBranchesIn_bare,
      Node.length_emptyLoopsIn_bare]
  refine ⟨p, hp ▸ write?_eq hstands ho, ?_, hcodes, fun hclean => ?_, ?_⟩
  · rw [Template.same_iff, hbare]
  · have hempty : emptyBodies (read s).template = [] := (List.append_eq_nil_iff.mp hclean).2
    rw [← codes_emptyBodies, hempty] at hcodes
    exact List.map_eq_nil_iff.mp hcodes
  · rw [write?_eq hstands' ho, hagain]

/-- A branch without a body, a line that is left out and a loop without a body. -/
def oddSource : Text := "@if (a)\n p\n@for x in y\n".toList

theorem round_trip_oddSource :
    (read oddSource).diagnostics.map Diagnostic.code =
        [some .oddIndent, some .emptyBranch, some .emptyFor] ∧
      ∃ p, (read oddSource).template.write? {} = .ok p ∧
        (read p).template.same (read oddSource).template = true ∧
        (read p).diagnostics.map Diagnostic.code = [some .emptyBranch, some .emptyFor] := by
  have hcodes : (read oddSource).diagnostics.map Diagnostic.code =
      [some .oddIndent, some .emptyBranch, some .emptyFor] := by decide +kernel
  have hvalid : ∀ d ∈ (read oddSource).diagnostics, d.code ≠ some .invalidExpression := by
    intro d hd hinvalid
    have hcode : d.code ∈ (read oddSource).diagnostics.map Diagnostic.code := List.mem_map_of_mem hd
    rw [hcodes, hinvalid] at hcode
    revert hcode
    decide
  obtain ⟨p, hp, hsame, hagain, -, -⟩ := round_trip oddSource {} rfl hvalid
  refine ⟨hcodes, p, hp, hsame, ?_⟩
  rw [hagain]
  decide +kernel

end Template

end Offside
