import Mathlib.Data.List.Nodup
import Offside.Proofs.Template.Composition
import Offside.Proofs.Template.Relocate
import Offside.Proofs.Template.Reports

/-! Lines that say nothing. Blank lines, spaces at the end of lines and lines that are reported for
their margin leave the state between two lines as it is. So what a text says does not change with
them: only the places do. -/
namespace Offside

open Text

/-- The line that is written for the line of a number, in a list of lines with what was written for
them. -/
def Line.kept? (σ : List (Line × Line)) (number : Int) : Option Line :=
  (σ.find? fun p => (p.1.number : Int) == number).map Prod.snd

/-- The report at the place of the line that is written for its line. Only the line and the offset
change; column and length stay. -/
def Diagnostic.renumber? (σ : List (Line × Line)) (d : Diagnostic) : Option Diagnostic := do
  let span ← d.span
  let l ← Line.kept? σ span.start.line
  some { d with span := some (Span.onLine l.number span.start.column span.length l.offset) }

/-- The second list of lines is the first one with other noise: blank lines come and go, lines that
are refused go, and the others are kept with spaces behind them. The pairs are the lines that are
kept, with what is written for them. -/
inductive Noise (refused : Line → Prop) : List Line → List Line → List (Line × Line) → Prop
  | done : Noise refused [] [] []
  | insert {l' : Line} {ls ls' : List Line} {σ : List (Line × Line)} : Blank l'.text →
      Unbroken l'.text → Noise refused ls ls' σ → Noise refused ls (l' :: ls') σ
  | delete {l : Line} {ls ls' : List Line} {σ : List (Line × Line)} : Blank l.text ∨ refused l →
      Noise refused ls ls' σ → Noise refused (l :: ls) ls' σ
  | keep {l l' : Line} {ls ls' : List Line} {σ : List (Line × Line)} {n : Nat} :
      l'.text = l.text ++ List.replicate n ' ' → Noise refused ls ls' σ →
      Noise refused (l :: ls) (l' :: ls') ((l, l') :: σ)

/-- The line is reported for its margin: it has a tab, or it starts half a level in. -/
def Template.Refused (s : Text) (l : Line) : Prop :=
  ∃ d ∈ (read s).diagnostics, d.OfMargin ∧ d.OnLine l.number

variable {refused : Line → Prop} {l l' : Line} {ls ls' : List Line} {σ : List (Line × Line)}

/-! ## Places of kept lines -/

theorem Mark.length_span (m : Mark) (n : Nat) : (m.span n).length = n := by
  simp only [Span.length, Mark.span, Span.onLine]
  omega

theorem Mark.right_right_comm (m : Mark) (n k : Nat) :
    (m.right n).right k = (m.right k).right n := by
  simp only [Mark.right, Nat.add_right_comm]

/-- A span on a line, one column to the right. -/
def Span.shifted (span : Span) : Span :=
  Span.onLine span.start.line (span.start.column + 1) span.length
    (span.start.offset - span.start.column + 1)

theorem Mark.shifted_span (m : Mark) (n : Nat) : (m.span n).shifted = (m.right 1).span n := by
  rw [Span.shifted, m.length_span n]
  simp [Mark.span, Mark.right, Span.onLine]
  omega

namespace Relocation

/-- Each line that is kept goes where it is written. -/
def along (σ : List (Line × Line)) : Relocation where
  mark m := match Line.kept? σ m.line with
    | some l => ⟨l.number, m.column, l.offset⟩
    | none => m
  span sp := match Line.kept? σ sp.start.line with
    | some l => Span.onLine l.number sp.start.column sp.length l.offset
    | none => sp
  mark_right m n := by
    rw [m.right_line n]
    split <;> rfl
  span_mark m n := by
    rw [m.span_start_line n, m.length_span n]
    split <;> rfl

/-- The lines of some numbers stay where they are, and everything on the others goes one column to
the right. -/
def aside (kept : Int → Bool) : Relocation where
  mark m := if kept m.line then m else m.right 1
  span sp := if kept sp.start.line then sp else sp.shifted
  mark_right m n := by
    rw [m.right_line n]
    split
    · rfl
    · exact m.right_right_comm n 1
  span_mark m n := by
    rw [m.span_start_line n]
    split
    · rfl
    · exact m.shifted_span n

end Relocation

/-- The report is on a line that is kept. -/
def Diagnostic.keptBy (σ : List (Line × Line)) (d : Diagnostic) : Bool :=
  d.span.any fun span => (Line.kept? σ span.start.line).isSome

theorem Diagnostic.renumber?_eq (σ : List (Line × Line)) (d : Diagnostic) :
    d.renumber? σ = if d.keptBy σ then some (d.move (.along σ)) else none := by
  obtain ⟨severity, message, span, code, file⟩ := d
  cases span with
  | none => rfl
  | some span =>
    cases hkept : Line.kept? σ span.start.line <;>
      simp [renumber?, keptBy, hkept, Diagnostic.move, Relocation.along]

theorem Diagnostic.filterMap_renumber? (σ : List (Line × Line)) (ds : List Diagnostic) :
    ds.filterMap (Diagnostic.renumber? σ) =
      (ds.filter (Diagnostic.keptBy σ)).map (Diagnostic.move (.along σ)) := by
  induction ds with
  | nil => rfl
  | cons d ds ih =>
    rw [List.filterMap_cons, d.renumber?_eq, ih, List.filter_cons]
    split <;> simp_all

theorem Line.kept?_of_mem (h : (σ.map fun p => p.1.number).Nodup) {p : Line × Line} (hp : p ∈ σ) :
    Line.kept? σ p.1.number = some p.2 := by
  rw [Line.kept?]
  induction σ with
  | nil => cases hp
  | cons q σ ih =>
    obtain ⟨hq, h⟩ := List.nodup_cons.mp h
    rcases List.mem_cons.mp hp with rfl | hp
    · simp
    · have hne : q.1.number ≠ p.1.number := fun he => hq (List.mem_map.mpr ⟨p, hp, he.symm⟩)
      rw [List.find?_cons_of_neg (by simpa using mod_cast hne), ih h hp]

namespace Noise

theorem sublist (h : Noise refused ls ls' σ) : (σ.map Prod.fst).Sublist ls := by
  induction h with
  | done => exact .slnil
  | insert _ _ _ ih => exact ih
  | delete _ _ ih => exact ih.cons _
  | keep _ _ ih => exact ih.cons_cons _

/-- Noise brings no line ends into lines. -/
theorem unbroken (h : Noise refused ls ls' σ) (hls : ∀ l ∈ ls, Unbroken l.text) :
    ∀ l' ∈ ls', Unbroken l'.text := by
  induction h with
  | done => simp
  | insert _ hunbroken _ ih => exact List.forall_mem_cons.mpr ⟨hunbroken, ih hls⟩
  | delete _ _ ih => exact ih fun k hk => hls k (List.mem_cons_of_mem _ hk)
  | @keep l l' ls ls' σ n htext _ ih =>
    refine List.forall_mem_cons.mpr ⟨?_, ih fun k hk => hls k (List.mem_cons_of_mem _ hk)⟩
    rw [htext]
    intro c hc
    rcases List.mem_append.mp hc with hc | hc
    · exact hls l List.mem_cons_self c hc
    · obtain rfl := (List.mem_replicate.mp hc).2
      decide

theorem margin (h : Noise refused ls ls' σ) :
    ∀ p ∈ σ, Margin.ofLine p.2.text = Margin.ofLine p.1.text := by
  induction h with
  | done => simp
  | insert _ _ _ ih => exact ih
  | delete _ _ ih => exact ih
  | keep htext _ ih =>
    refine List.forall_mem_cons.mpr ⟨?_, ih⟩
    rw [htext, Margin.ofLine_append_replicate]

theorem nodup_number (h : Noise refused ls ls' σ) (hls : (ls.map Line.number).Nodup) :
    (σ.map fun p => p.1.number).Nodup := by
  have hsub := h.sublist.map Line.number
  rw [List.map_map] at hsub
  exact hls.sublist hsub

/-- A report on a line of the text is kept with its line. -/
theorem keptBy_iff (h : Noise refused ls ls' σ) (hls : (ls.map Line.number).Nodup) (hl : l ∈ ls)
    {d : Diagnostic} (hd : d.OnLine l.number) : d.keptBy σ = true ↔ l ∈ σ.map Prod.fst := by
  obtain ⟨span, hspan, hline⟩ := hd.starts
  rw [Diagnostic.keptBy, hspan, Option.any_some, hline]
  constructor
  · intro hkept
    rw [Line.kept?, Option.isSome_map, List.find?_isSome] at hkept
    obtain ⟨p, hp, hnumber⟩ := hkept
    have hmem : p.1 ∈ σ.map Prod.fst := List.mem_map_of_mem hp
    have hl' : p.1 = l :=
      List.inj_on_of_nodup_map hls (h.sublist.subset hmem) hl
        (Int.ofNat_inj.mp (by simpa using hnumber))
    exact hl' ▸ hmem
  · intro hmem
    obtain ⟨p, hp, rfl⟩ := List.mem_map.mp hmem
    rw [Line.kept?_of_mem (h.nodup_number hls) hp, Option.isSome_some]

end Noise

/-! ## Runs -/

namespace Outliner

variable {s : Outliner} {keep : Diagnostic → Bool}

/-- The same state, with some of the reports forgotten. -/
def quiet (keep : Diagnostic → Bool) (s : Outliner) : Outliner :=
  { s with diagnostics := s.diagnostics.filter keep }

theorem step_of_blank (s : Outliner) (hl : Blank l.text) : s.step l = s := by
  rw [step, Margin.ofLine_blank.mpr hl]

theorem step_quiet (h : s.Leveled) (hl : Unbroken l.text)
    (hkeep : ∀ d, d.OnLine l.number → keep d = true) :
    (s.step l).quiet keep = (s.quiet keep).step l := by
  obtain ⟨ds, hds, hstep⟩ := s.exists_step_diagnostics l
  obtain ⟨es, hes, hline⟩ := (transition_step h hl (yields_true _)).diagnostics
  obtain rfl : ds = es := List.append_cancel_left (hds.symm.trans hes)
  have hfilter : ds.filter keep = ds := List.filter_eq_self.mpr fun d hd => hkeep d (hline d hd)
  rw [quiet, hds, List.filter_append, hfilter]
  exact (hstep (s.diagnostics.filter keep)).symm

theorem step_quiet_of_askew (s : Outliner) (hl : l.Askew)
    (hkeep : ∀ d, d.OnLine l.number → keep d = false) : (s.step l).quiet keep = s.quiet keep := by
  have hreport : ∀ column p, (s.report (l.mark column) p 1).quiet keep = s.quiet keep := by
    intro column p
    have hdropped := hkeep _ ((l.mark column).diagnose_onLine p 1)
    simp [quiet, report, note, hdropped]
  obtain ⟨column, hmargin | hmargin⟩ := hl <;> rw [step, hmargin] <;> exact hreport column _

/-- A run over the lines that are kept comes to the same, up to what the other lines report. -/
theorem foldl_quiet (hnoise : Noise refused ls ls' σ) (hrefused : ∀ l ∈ ls, refused l → l.Askew)
    (hls : ∀ l ∈ ls, Unbroken l.text) (hnodup : ls.Nodup)
    (hkeep : ∀ l ∈ ls, ∀ d, d.OnLine l.number → (keep d = true ↔ l ∈ σ.map Prod.fst))
    (h : s.Leveled) :
    (ls.foldl step s).quiet keep = (σ.map Prod.fst).foldl step (s.quiet keep) := by
  induction hnoise generalizing s with
  | done => rfl
  | insert _ _ _ ih => exact ih hrefused hls hnodup hkeep h
  | @delete l ls ls' σ hsays hnoise ih =>
    obtain ⟨hunbroken, hls⟩ := List.forall_mem_cons.mp hls
    obtain ⟨haskew, hrefused⟩ := List.forall_mem_cons.mp hrefused
    obtain ⟨hdropped, hkeep⟩ := List.forall_mem_cons.mp hkeep
    obtain ⟨hmem, hnodup⟩ := List.nodup_cons.mp hnodup
    have hleveled := (transition_step h hunbroken (yields_true _)).leveled h
    have hstep : (s.step l).quiet keep = s.quiet keep := by
      rcases hsays with hblank | hl
      · rw [s.step_of_blank hblank]
      · refine s.step_quiet_of_askew (haskew hl) fun d hd => ?_
        rw [← Bool.not_eq_true, hdropped d hd]
        exact fun hl => hmem (hnoise.sublist.subset hl)
    rw [List.foldl_cons, ih hrefused hls hnodup hkeep hleveled, hstep]
  | @keep l l' ls ls' σ n _ hnoise ih =>
    obtain ⟨hunbroken, hls⟩ := List.forall_mem_cons.mp hls
    obtain ⟨-, hrefused⟩ := List.forall_mem_cons.mp hrefused
    obtain ⟨hkept, hkeep⟩ := List.forall_mem_cons.mp hkeep
    obtain ⟨hmem, hnodup⟩ := List.nodup_cons.mp hnodup
    have hleveled := (transition_step h hunbroken (yields_true _)).leveled h
    have hkeep' : ∀ k ∈ ls, ∀ d, d.OnLine k.number → (keep d = true ↔ k ∈ σ.map Prod.fst) := by
      intro k hk d hd
      have hne : k ≠ l := fun he => hmem (he ▸ hk)
      simpa [hne] using hkeep k hk d hd
    have hstep := step_quiet h hunbroken fun d hd => (hkept d hd).mpr List.mem_cons_self
    rw [List.foldl_cons, ih hrefused hls hnodup hkeep' hleveled, hstep]
    rfl

/-- Lines that are inserted do nothing. -/
theorem foldl_inserted (hnoise : Noise refused ls ls' σ) (s : Outliner) :
    ls'.foldl step s = (σ.map Prod.snd).foldl step s := by
  induction hnoise generalizing s with
  | done => rfl
  | insert hblank _ _ ih => rw [List.foldl_cons, s.step_of_blank hblank, ih]
  | delete _ _ ih => exact ih s
  | keep _ _ ih => exact ih _

/-- The run over lines with other noise comes to the state at the new places of the lines that are
kept, with the reports on these lines. -/
theorem foldl_noise (hnoise : Noise refused ls ls' σ) (hrefused : ∀ l ∈ ls, refused l → l.Askew)
    (hls : ∀ l ∈ ls, Unbroken l.text) (hnodup : (ls.map Line.number).Nodup) (h : s.Leveled)
    (hs : (s.quiet (Diagnostic.keptBy σ)).relocate (.along σ) [] = s) : ls'.foldl step s =
      ((ls.foldl step s).quiet (Diagnostic.keptBy σ)).relocate (.along σ) [] := by
  have hmark : ∀ p ∈ σ, ∀ column,
      p.2.mark column = (Relocation.along σ).mark (p.1.mark column) := by
    intro p hp column
    have hkept := Line.kept?_of_mem (hnoise.nodup_number hnodup) hp
    simp only [Relocation.along, Line.mark, hkept]
  have hpairs : List.Forall₂ (fun k k' => Margin.ofLine k'.text = Margin.ofLine k.text ∧
      ∀ column, k'.mark column = (Relocation.along σ).mark (k.mark column))
      (σ.map Prod.fst) (σ.map Prod.snd) := by
    rw [List.forall₂_map_left_iff, List.forall₂_map_right_iff, List.forall₂_same]
    exact fun p hp => ⟨hnoise.margin p hp, hmark p hp⟩
  rw [foldl_inserted hnoise, foldl_quiet hnoise hrefused hls (.of_map _ hnodup)
    (fun l hl d hd => hnoise.keptBy_iff hnodup hl hd) h,
    ← foldl_relocate (.along σ) [] hpairs, hs]

end Outliner

namespace Outliner

variable {s : Outliner}

/-- Every branch and every loop without a body is on a line that was read: it stays where it is as
long as these lines do. -/
theorem emptyBodies_run {kept : Int → Bool} {ks : List Line}
    (h : ∀ k ∈ ks, kept k.number = true) :
    ∀ d ∈ (ks.foldl step (start none)).template.emptyBodies,
      ∀ span ∈ d.span, kept span.start.line = true := by
  have hlines : List.Forall₂ (fun k k' => Margin.ofLine k'.text = Margin.ofLine k.text ∧
      ∀ column, k'.mark column = (Relocation.aside kept).mark (k.mark column)) ks ks := by
    rw [List.forall₂_same]
    intro k hk
    refine ⟨rfl, fun column => ?_⟩
    simp only [Relocation.aside, Line.mark, h k hk, if_true]
  have hrun := foldl_relocate (.aside kept) [] hlines (start none)
  have htemplate : (ks.foldl step (start none)).template.move (.aside kept) =
      (ks.foldl step (start none)).template := (congrArg Outliner.template hrun).symm
  have hempty := Template.emptyBodies_move (.aside kept) (ks.foldl step (start none)).template
  rw [htemplate] at hempty
  intro d hd span hspan
  have hfixed : d.move (.aside kept) = d :=
    List.map_inj_left.mp (hempty.symm.trans (List.map_id _).symm) d hd
  by_contra hmoved
  have hspan' : (Relocation.aside kept).span span = span := by
    have hmap := congrArg Diagnostic.span hfixed
    rw [Diagnostic.move, Option.mem_def.mp hspan] at hmap
    exact Option.some.inj hmap
  simp only [Relocation.aside, hmoved] at hspan'
  have hcolumn := congrArg (fun sp => sp.start.column) hspan'
  simp only [if_false, Span.shifted, Span.onLine] at hcolumn
  omega

end Outliner

namespace Template

variable {s s' : Text} {ts : List Text}

/-- The state behind the lines of a text, without the span of the whole. -/
def run (s : Text) : Outliner := (Line.ofText s).foldl Outliner.step (Outliner.start none)

theorem outline_eq (s : Text) : outline s = (run s).respan (some (wholeSpan s)) :=
  Outliner.foldl_respan (Outliner.start none) (some (wholeSpan s)) (Line.ofText s)

theorem emptyBodies_outline (s : Text) :
    (outline s).template.emptyBodies = (run s).template.emptyBodies := by
  rw [outline_eq]
  rfl

theorem diagnostics_outline (s : Text) : (outline s).diagnostics = (run s).diagnostics := by
  rw [outline_eq]
  rfl

/-- What is read of a text with other noise: the run over its lines is at the new places, with the
reports on the lines that are kept. -/
theorem run_noise (h : Noise (Refused s) (Line.ofText (unifyNewlines s))
    (Line.ofText (unifyNewlines s')) σ) : run (unifyNewlines s') =
      ((run (unifyNewlines s)).quiet (Diagnostic.keptBy σ)).relocate (.along σ) [] :=
  Outliner.foldl_noise h (fun _ hl ⟨_, hd, hm, hline⟩ => askew_of_reported hl hd hline hm)
    (unbroken_ofText s) (Line.nodup_numberFrom ..)
    (Outliner.sound_start (P := fun _ => True) none).leveled rfl

/-- No branch and no loop without a body is on a line that goes. -/
theorem keptBy_emptyBodies (h : Noise (Refused s) (Line.ofText (unifyNewlines s)) ls' σ) :
    ∀ d ∈ (outline (unifyNewlines s)).template.emptyBodies, d.keptBy σ = true := by
  have hnumbers := Line.nodup_numberFrom 1 0 (Text.lines (unifyNewlines s))
  have hquiet := Outliner.foldl_quiet h
    (fun _ hl ⟨_, hd, hm, hline⟩ => askew_of_reported hl hd hline hm) (unbroken_ofText s)
    (.of_map _ hnumbers) (fun _ hl _ hd => h.keptBy_iff hnumbers hl hd)
    (Outliner.sound_start (P := fun _ => True) none).leveled
  have hkept : ∀ k ∈ σ.map Prod.fst, (Line.kept? σ k.number).isSome = true := by
    intro k hk
    obtain ⟨p, hp, rfl⟩ := List.mem_map.mp hk
    rw [Line.kept?_of_mem (h.nodup_number hnumbers) hp, Option.isSome_some]
  have hempty := @Outliner.emptyBodies_run (fun number => (Line.kept? σ number).isSome) _ hkept
  have htemplate : (run (unifyNewlines s)).template =
      ((σ.map Prod.fst).foldl Outliner.step (Outliner.start none)).template := by
    have h := congrArg Outliner.template hquiet
    exact h
  rw [← htemplate, ← emptyBodies_outline] at hempty
  intro d hd
  have hspan : ∃ span, d.span = some span := by
    rcases placed_read s d (List.mem_append_right _ hd) with
      ⟨l, -, span, hspan, -⟩ | ⟨l, -, -, rfl⟩
    · exact ⟨span, hspan⟩
    · exact ⟨_, rfl⟩
  obtain ⟨span, hspan⟩ := hspan
  rw [Diagnostic.keptBy, hspan, Option.any_some]
  exact hempty d hd span hspan

/-- Noise between the lines changes nothing but the numbers of lines. -/
theorem read_noise (h : Noise (Refused s) (Line.ofText (unifyNewlines s))
    (Line.ofText (unifyNewlines s')) σ) :
    (read s').template.same (read s).template = true ∧
      (read s').diagnostics = (read s).diagnostics.filterMap (Diagnostic.renumber? σ) := by
  have hrun := run_noise h
  have hempty := keptBy_emptyBodies h
  constructor
  · have hbare : ∀ (t : Outliner) span, (t.respan span).template.bare = t.template.bare :=
      fun _ _ => rfl
    rw [same_iff]
    simp only [read]
    rw [outline_eq, outline_eq, hbare, hbare, hrun]
    exact bare_move (.along σ) _
  · simp only [read, List.filterMap_append, Diagnostic.filterMap_renumber?]
    rw [List.filter_eq_self.mpr hempty, diagnostics_outline, diagnostics_outline,
      emptyBodies_outline, emptyBodies_outline, hrun, ← emptyBodies_move]
    rfl

/-- Noise does not matter. Let the lines of a text be written with blank lines inserted or left out,
with spaces behind them, without lines that are refused for their margin, and with any ends. What is
read then is the same template, spans apart, with the same reports at the new places of the lines
that are kept. -/
theorem read_eq_of_noise
    (h : Noise (Refused s) (Line.ofText (unifyNewlines s)) (Line.numberFrom 1 0 ts) σ)
    (hs : Text.lines (unifyNewlines s') = ts ∨ ∃ e ∈ lineEnds, s' = e.intercalate ts) :
    (read s').template.same (read s).template = true ∧
      (read s').diagnostics = (read s).diagnostics.filterMap (Diagnostic.renumber? σ) := by
  apply read_noise
  rcases hs with rfl | ⟨e, he, rfl⟩
  · exact h
  · by_cases hne : ts = []
    · subst hne
      exact .insert blank_nil (by simp [Unbroken]) h
    · have hts : ∀ t ∈ ts, Unbroken t := by
        intro t ht
        rw [← Line.map_text_numberFrom 1 0 ts] at ht
        obtain ⟨l, hl, rfl⟩ := List.mem_map.mp ht
        exact h.unbroken (unbroken_ofText s) l hl
      have hlines : Line.ofText (unifyNewlines (e.intercalate ts)) = Line.numberFrom 1 0 ts := by
        rw [Line.ofText, lines_intercalate he hne hts]
      rwa [hlines]

/-- A text with a line that has a tab, one that starts half a level in, and a branch without a
body. -/
def noisySource : Text := "@if (a)\n\tx\n  p\n q\n@else".toList

/-- The same lines without the first of these two, and with blanks. -/
def quietLines : List Text :=
  [['@', 'i', 'f', ' ', '(', 'a', ')', ' ', ' '], [], [' ', '\t'], [' ', ' ', 'p'], [' ', 'q'],
    ['@', 'e', 'l', 's', 'e', ' ']]

theorem read_eq_of_noise_noisySource :
    ∃ σ, Noise (Refused noisySource) (Line.ofText (unifyNewlines noisySource))
        (Line.numberFrom 1 0 quietLines) σ ∧
      (read (['\r', '\n'].intercalate quietLines)).template.same
        (read noisySource).template = true ∧
      (read (['\r', '\n'].intercalate quietLines)).diagnostics =
        (read noisySource).diagnostics.filterMap (Diagnostic.renumber? σ) ∧
      (read noisySource).diagnostics.filterMap (Diagnostic.renumber? σ) =
        [(Mark.mk 5 2 18).diagnose .oddIndent 1, (Mark.mk 6 1 21).diagnose .emptyBranch 5] := by
  have hrefused : Refused noisySource ⟨2, 8, ['\t', 'x']⟩ :=
    ⟨(Mark.mk 2 1 8).diagnose .tab 1, by decide +kernel, Or.inl rfl,
      (Mark.mk 2 1 8).diagnose_onLine .tab 1⟩
  have hnoise : Noise (Refused noisySource) (Line.ofText (unifyNewlines noisySource))
      (Line.numberFrom 1 0 quietLines) _ :=
    .keep (n := 2) rfl (.insert (by simp [Blank]) (by simp [Unbroken])
      (.insert (by simp [Blank, isBlank]) (by simp [Unbroken])
        (.delete (Or.inr hrefused) (.keep (n := 0) rfl (.keep (n := 0) rfl
          (.keep (n := 1) rfl .done))))))
  obtain ⟨hsame, hdiagnostics⟩ := read_eq_of_noise hnoise
    (Or.inr ⟨['\r', '\n'], by simp [lineEnds], rfl⟩)
  exact ⟨_, hnoise, hsame, hdiagnostics, by decide +kernel⟩

end Template

end Offside
