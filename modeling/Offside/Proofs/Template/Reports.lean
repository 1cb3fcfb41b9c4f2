import Offside.Proofs.Template.Spans

/-! Which lines are reported for what. A report about the margin comes from a line that is not read
any further, and what is reported about a line that is read is about what the line says. No line is
reported for a body that stays empty; that is known only at the end. -/
namespace Offside

open Text

/-- The report is about the margin of a line. -/
def Diagnostic.OfMargin (d : Diagnostic) : Prop :=
  d.code = some .tabIndent ∨ d.code = some .oddIndent

/-- The report is about a branch or a loop that stays without a body. -/
def Diagnostic.OfBody (d : Diagnostic) : Prop :=
  d.code = some .emptyBranch ∨ d.code = some .emptyFor

/-- The report is about what a line says. -/
def Diagnostic.OfContent (d : Diagnostic) : Prop := ¬ d.OfMargin ∧ ¬ d.OfBody

/-- The line has a tab or starts half a level in. -/
def Line.Askew (l : Line) : Prop :=
  ∃ column, Margin.ofLine l.text = .tab column ∨ Margin.ofLine l.text = .odd column

variable {m : Mark} {e : Diagnostic} {l : Line} {ls : List Line} {line : Text} {level base : Nat}

@[simp] theorem Diagnostic.ofMargin_ofProblem (p : Problem) (span : Option Span) :
    (Diagnostic.ofProblem p span).OfMargin ↔ p.code = .tabIndent ∨ p.code = .oddIndent := by
  simp [OfMargin, ofProblem]

@[simp] theorem Diagnostic.ofBody_ofProblem (p : Problem) (span : Option Span) :
    (Diagnostic.ofProblem p span).OfBody ↔ p.code = .emptyBranch ∨ p.code = .emptyFor := by
  simp [OfBody, ofProblem]

@[simp] theorem Mark.ofMargin_diagnose (m : Mark) (p : Problem) (n : Nat) :
    (m.diagnose p n).OfMargin ↔ p.code = .tabIndent ∨ p.code = .oddIndent :=
  Diagnostic.ofMargin_ofProblem p _

@[simp] theorem Mark.ofBody_diagnose (m : Mark) (p : Problem) (n : Nat) :
    (m.diagnose p n).OfBody ↔ p.code = .emptyBranch ∨ p.code = .emptyFor :=
  Diagnostic.ofBody_ofProblem p _

/-! ## Readers -/

theorem Diagnostic.Rejects.ofContent (h : e.Rejects m line) : e.OfContent := by
  obtain ⟨p, hp, rfl⟩ := h
  simpa [OfContent, and_assoc] using hp

theorem Pipe.content_read (m : Mark) (placement : Placement) (line : Text) :
    ∀ d ∈ (read m placement line).2, d.OfContent := by
  have hparts : ∀ m s, ∀ d ∈ (readParts m none s).2, d.OfContent := by
    intro m s d hd
    have hcode := (readParts_diagnostics m none s (by simp) d hd).2
    simp [Diagnostic.OfContent, Diagnostic.OfMargin, Diagnostic.OfBody, hcode]
  simp only [read]
  split <;> exact hparts _ _

namespace Node

theorem content_of_error_expression (h : readExpression m line = .error e) : e.OfContent := by
  rw [readExpression.eq_def] at h
  dsimp only at h
  split at h
  · cases h
    simp [Diagnostic.OfContent, Problem.code]
  split at h
  · cases h
    simp [Diagnostic.OfContent, Problem.code]
  split at h <;> cases h
  simp [Diagnostic.OfContent, Problem.code]

/-- What is wrong with an element line is a matter of its content. -/
theorem content_readElement (m : Mark) (line : Text) :
    ∀ d ∈ (reading (readElement m line)).2, d.OfContent := by
  cases h : readElement m line with
  | error e =>
    obtain ⟨k, p, length, hp, rfl⟩ := exists_diagnose_of_readElement h
    simp [Diagnostic.OfContent, reading, hp]
  | ok r =>
    obtain ⟨n, ds⟩ := r
    obtain ⟨name, classes, rest, pipe, span, -, -, -, -, -, hr⟩ := spells_of_readElement h
    rw [hr]
    cases pipe with
    | none => simp [reading]
    | some p => exact Pipe.content_read p.1 .inline p.2

theorem content_readInline (m : Mark) (line : Text) :
    ∀ d ∈ (readInline m line).2, d.OfContent := by
  rw [readInline.eq_def]
  split
  · exact Pipe.content_read m .inline _
  · cases hread : readExpression m _ with
    | error d => simpa [reading, Except.map, hread] using content_of_error_expression hread
    | ok n => simp [reading, Except.map]
  · simp [Diagnostic.OfContent, Problem.code]
  · exact content_readElement m line

end Node

/-! ## One line -/

namespace Outliner

variable {s t u : Outliner}

/-- What is reported between two states is about content. -/
def ReportsContent (s t : Outliner) : Prop := ∀ d ∈ t.diagnostics, d ∈ s.diagnostics ∨ d.OfContent

theorem reportsContent_of_eq (h : t.diagnostics = s.diagnostics) : s.ReportsContent t :=
  fun _ hd => Or.inl (h ▸ hd)

theorem ReportsContent.trans (h : s.ReportsContent t) (h' : t.ReportsContent u) :
    s.ReportsContent u := fun d hd => (h' d hd).elim (h d) Or.inr

theorem reportsContent_note (s : Outliner) {ds : List Diagnostic} (h : ∀ d ∈ ds, d.OfContent) :
    s.ReportsContent (s.note ds) := fun d hd => (List.mem_append.mp hd).imp id (h d)

theorem reportsContent_report (s : Outliner) (m : Mark) {p : Problem} (n : Nat)
    (hp : p.code ∉ [.tabIndent, .oddIndent, .emptyBranch, .emptyFor]) :
    s.ReportsContent (s.report m p n) := by
  refine s.reportsContent_note fun d hd => ?_
  obtain rfl := List.mem_singleton.mp hd
  simpa [Diagnostic.OfContent, and_assoc] using hp

theorem reportsContent_error (s : Outliner) (h : e.OfContent) : s.ReportsContent (s.note [e]) :=
  s.reportsContent_note (by simpa using h)

theorem content_branchOf (head : BranchHead) : ∀ d ∈ (branchOf head).2, d.OfContent := by
  rw [branchOf]
  split
  · simp
  · exact Node.content_readInline _ _

theorem reportsContent_addBranch (s : Outliner) (head : BranchHead) (level : Nat) :
    s.ReportsContent (s.addBranch head level) := by
  intro d hd
  simp only [addBranch, pushBranch_eq, note, List.mem_append] at hd
  exact hd.imp id (content_branchOf head d)

/-- Whatever a line of a kind reports is a matter of its content. -/
theorem reportsContent_readKind (s : Outliner) (m : Mark) (level : Nat) (line : Text)
    (kind : LineKind) : s.ReportsContent (s.readKind m level line kind) := by
  cases kind with
  | id =>
    simp only [readKind, readId]
    iterate 3 split; exact s.reportsContent_report _ _ (by decide)
    split
    · next h => exact s.reportsContent_error (TemplateId.rejects_of_read h).ofContent
    · exact reportsContent_of_eq rfl
  | props =>
    simp only [readKind, openProps]
    iterate 2 split; exact s.reportsContent_report _ _ (by decide)
    exact reportsContent_of_eq rfl
  | classes =>
    simp only [readKind, openClasses]
    iterate 2 split; exact s.reportsContent_report _ _ (by decide)
    exact reportsContent_of_eq rfl
  | ifLine =>
    simp only [readKind, readIf]
    split
    · next h => exact s.reportsContent_error (BranchHead.rejects_of_readTested h).ofContent
    · intro d hd
      simp only [pushBranch_eq, note, add, List.mem_append] at hd
      exact hd.imp id (content_branchOf _ d)
  | elseIf =>
    simp only [readKind, readElseIf]
    split
    · exact s.reportsContent_report _ _ (by decide)
    split
    · exact s.reportsContent_report _ _ (by decide)
    split
    · next h => exact s.reportsContent_error (BranchHead.rejects_of_readTested h).ofContent
    · exact s.reportsContent_addBranch _ _
  | elseLine =>
    simp only [readKind, readElse]
    split
    · exact s.reportsContent_report _ _ (by decide)
    split
    · exact s.reportsContent_report _ _ (by decide)
    · exact (reportsContent_of_eq rfl).trans (reportsContent_addBranch _ _ _)
  | forLine =>
    simp only [readKind, readLoop]
    split
    · exact s.reportsContent_report _ _ (by decide)
    · exact reportsContent_of_eq rfl
  | pipe =>
    have hread := Pipe.content_read m .block line
    exact (reportsContent_of_eq rfl).trans
      ((s.add (Pipe.read m .block line).1).reportsContent_note hread)
  | expression =>
    simp only [readKind]
    split
    · next h => exact s.reportsContent_error (Node.content_of_error_expression h)
    · exact reportsContent_of_eq rfl
  | element =>
    have hread := Node.content_readElement m line
    simp only [readKind]
    split
    · next h =>
      rw [h] at hread
      exact s.reportsContent_note hread
    · next n ds h =>
      rw [h] at hread
      exact (reportsContent_of_eq rfl).trans ((s.add n).reportsContent_note hread)

/-- Whatever a line at a level reports is a matter of its content. -/
theorem reportsContent_readLevel (s : Outliner) (m : Mark) (level : Nat) (line : Text) :
    s.ReportsContent (s.readLevel m level line) := by
  refine (reportsContent_of_eq (t := s.closeHeaders level) rfl).trans ?_
  obtain ⟨t, ht⟩ : ∃ t, s.closeHeaders level = t := ⟨_, rfl⟩
  rw [readLevel, ht]
  split
  · rw [readField]
    split
    · exact t.reportsContent_report _ _ (by decide)
    split
    · next h => exact t.reportsContent_error (PropsField.rejects_of_read h).ofContent
    · exact reportsContent_of_eq rfl
  · rw [readAlias]
    split
    · exact t.reportsContent_report _ _ (by decide)
    split
    · next h => exact t.reportsContent_error (ClassAlias.rejects_of_read h).ofContent
    · exact reportsContent_of_eq rfl
  · rw [readBody]
    split
    · exact (t.reportsContent_report m 1 (by decide)).trans
        ((reportsContent_of_eq rfl).trans (reportsContent_readKind _ _ _ _ _))
    · exact (reportsContent_of_eq rfl).trans (reportsContent_readKind _ _ _ _ _)

/-- What a line adds to the reports is not about a body, and it is about the margin only if the line
is not read any further. -/
theorem reports_step_cases (s : Outliner) (l : Line) : ∀ d ∈ (s.step l).diagnostics,
    d ∈ s.diagnostics ∨ (d.OfMargin → l.Askew) ∧ ¬ d.OfBody := by
  have hmargin : ∀ {t : Outliner} {m : Mark} {p : Problem} {n : Nat}, l.Askew →
      p.code = .tabIndent ∨ p.code = .oddIndent → t = s.report m p n → ∀ d ∈ t.diagnostics,
        d ∈ s.diagnostics ∨ (d.OfMargin → l.Askew) ∧ ¬ d.OfBody := by
    rintro t m p n haskew hp rfl d hd
    refine (List.mem_append.mp hd).imp id fun hd => ⟨fun _ => haskew, ?_⟩
    obtain rfl := List.mem_singleton.mp hd
    rcases hp with hp | hp <;> simp [hp]
  rw [step]
  split
  · exact fun d hd => Or.inl hd
  · next column h => exact hmargin ⟨column, Or.inl h⟩ (Or.inl rfl) rfl
  · next column h => exact hmargin ⟨column, Or.inr h⟩ (Or.inr rfl) rfl
  · intro d hd
    exact (s.reportsContent_readLevel _ _ _ d hd).imp id fun hc => ⟨fun hm => (hc.1 hm).elim, hc.2⟩

/-- What a line adds to the reports is on this line. -/
theorem reports_step (h : s.Leveled) (hl : Unbroken l.text) : ∀ d ∈ (s.step l).diagnostics,
    d ∈ s.diagnostics ∨ d.OnLine l.number ∧ (d.OfMargin → l.Askew) ∧ ¬ d.OfBody := by
  obtain ⟨ds, hds, hline⟩ := (transition_step h hl (yields_true _)).diagnostics
  intro d hd
  rcases List.mem_append.mp (hds ▸ hd) with hold | hnew
  · exact Or.inl hold
  · exact (s.reports_step_cases l d hd).imp id fun hd => ⟨hline d hnew, hd⟩

theorem reports_run (h : s.Leveled) (hl : ∀ l ∈ ls, Unbroken l.text) :
    ∀ d ∈ (ls.foldl step s).diagnostics,
      d ∈ s.diagnostics ∨ ∃ l ∈ ls, d.OnLine l.number ∧ (d.OfMargin → l.Askew) ∧ ¬ d.OfBody := by
  induction ls generalizing s with
  | nil => exact fun d => Or.inl
  | cons l ls ih =>
    have hline := hl l List.mem_cons_self
    have hleveled := (transition_step h hline (yields_true _)).leveled h
    intro d hd
    rcases ih hleveled (fun k hk => hl k (List.mem_cons_of_mem l hk)) d hd with hd | ⟨k, hk, hd⟩
    · exact (reports_step h hline d hd).imp id fun hd => ⟨l, List.mem_cons_self, hd⟩
    · exact Or.inr ⟨k, List.mem_cons_of_mem l hk, hd⟩

end Outliner

namespace Template

variable {s : Text} {d : Diagnostic}

theorem not_ofMargin_emptyBodies (t : Template) : ∀ d ∈ t.emptyBodies, ¬ d.OfMargin := by
  intro d hd
  rcases List.mem_append.mp hd with hd | hd <;>
    · obtain ⟨span, -, rfl⟩ := List.mem_map.mp hd
      simp [Problem.code]

/-- What is reported before the end is about one of the lines. -/
theorem reports_outline (hd : d ∈ (outline (unifyNewlines s)).diagnostics) :
    ∃ l ∈ Line.ofText (unifyNewlines s),
      d.OnLine l.number ∧ (d.OfMargin → l.Askew) ∧ ¬ d.OfBody := by
  have hstart := Outliner.sound_start (P := fun _ => True) (some (wholeSpan (unifyNewlines s)))
  refine (Outliner.reports_run hstart.leveled (unbroken_ofText s) d hd).resolve_left ?_
  rintro ⟨⟩

/-- What is reported about a margin is about a line that is not read any further. -/
theorem exists_askew_of_ofMargin (hd : d ∈ (read s).diagnostics) (hm : d.OfMargin) :
    ∃ l ∈ Line.ofText (unifyNewlines s), d.OnLine l.number ∧ l.Askew := by
  rcases List.mem_append.mp hd with hd | hd
  · obtain ⟨l, hl, hline, haskew, -⟩ := reports_outline hd
    exact ⟨l, hl, hline, haskew hm⟩
  · exact (not_ofMargin_emptyBodies _ d hd hm).elim

/-- A line of a text that is reported for its margin is not read any further. -/
theorem askew_of_reported (hl : l ∈ Line.ofText (unifyNewlines s)) (hd : d ∈ (read s).diagnostics)
    (hline : d.OnLine l.number) (hm : d.OfMargin) : l.Askew := by
  obtain ⟨k, hk, hline', haskew⟩ := exists_askew_of_ofMargin hd hm
  obtain ⟨span, hspan, hstarts⟩ := hline.starts
  obtain ⟨span', hspan', hstarts'⟩ := hline'.starts
  obtain rfl := Option.some.inj (hspan.symm.trans hspan')
  have hnumber : k.number = l.number := by omega
  exact eq_of_number_eq hk hl hnumber ▸ haskew

end Template

end Offside
