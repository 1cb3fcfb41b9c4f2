import Offside.Cli.Run
import Offside.Proofs.Markup.Writable
import Offside.Proofs.Template.Sound

/-! What each command comes to. A command gets a text and works on it; the only thing that can keep
it from an outcome then is an indent that cannot be laid out or, for an import, the selection. -/
namespace Offside

/-- Every report of errors can be made. -/
theorem Report.exists_make {ds : List Diagnostic} (file : Text) (templateId : Option Text)
    (h : ∀ d ∈ ds, d.isError = true) :
    ∃ report, make file templateId ds = .ok report ∧ report.errors = ds.length := by
  have hentries : ∃ entries, ds.mapM Entry.of = .ok entries ∧
      entries.countP (·.severity == .error) = ds.length := by
    induction ds with
    | nil => exact ⟨[], rfl, rfl⟩
    | cons d ds ih =>
      obtain ⟨hd, hds⟩ := List.forall_mem_cons.mp h
      obtain ⟨entries, hentries, hcount⟩ := ih hds
      have hseverity : d.severity = .error := by simpa [Diagnostic.isError] using hd
      refine ⟨⟨.error, d.message, d.code, d.span⟩ :: entries, ?_, ?_⟩
      · simp [List.mapM_cons, hentries, Entry.of, hseverity, bind, Except.bind, pure, Except.pure]
      · rw [List.countP_cons_of_pos rfl, hcount, List.length_cons]
  obtain ⟨entries, hentries, hcount⟩ := hentries
  exact ⟨⟨file, templateId, entries⟩,
    by simp [make, hentries, bind, Except.bind, pure, Except.pure], hcount⟩

/-- A template is exported unless there is an error in it. -/
theorem isSuccess_exportTemplate (s : Text) (target : Option Target) (o : ExportOptions) :
    (exportTemplate s target o).isSuccess = !(Template.read s).hasErrors := by
  have hany : (Template.read s).hasErrors =
      !(Diagnostic.errors (Template.read s).diagnostics).isEmpty := by
    rw [Reading.hasErrors, Diagnostic.anyError, Diagnostic.errors, Bool.eq_iff_iff]
    simp
  rw [exportTemplate, hany]
  dsimp only
  split
  · next h =>
    rw [h]
    rfl
  · next h =>
    rw [Exported.isSuccess, List.isEmpty_eq_false_iff.mpr h]
    rfl

namespace Cli

open Text

variable {w : World} {settings : Settings} {c : Command} {file s : Text} {log : List Message}

/-! ## Runs -/

theorem bind_of_ok {α β : Type} {first : Run α} {next : α → Run β} {a : α} {log' : List Message}
    (h : first log = .ok (a, log')) : (first >>= next) log = next a log' := by
  simp only [bind, Run.bind, h]

theorem bind_of_error {α β : Type} {first : Run α} {next : α → Run β} {e : Outcome ⊕ Failure}
    (h : first log = .error e) : (first >>= next) log = .error e := by
  simp only [bind, Run.bind, h]

/-- How a run ends when the system refuses what it asks for at a path. -/
def refusedEnd (path : Text) (log : List Message) : FileError → Outcome ⊕ Failure
  | .unnameable => .inr .unnameable
  | e => .inl ⟨2, [], log ++ [.plain (e.message path ++ ['\n'])], none⟩

theorem fromSystem_error {α : Type} (path : Text) (e : FileError) (log : List Message) :
    (fromSystem path (.error e) : Run α) log = .error (refusedEnd path log e) := by
  cases e <;> rfl

theorem refusedEnd_of_ne {e : FileError} (he : e ≠ .unnameable) (path : Text)
    (log : List Message) : refusedEnd path log e =
      .inl ⟨2, [], log ++ [.plain (e.message path ++ ['\n'])], none⟩ := by
  cases e with
  | unnameable => exact (he rfl).elim
  | missing | notDirectory | isDirectory | nameTooLong | refused number reason => rfl

theorem readText_of_error {e : FileError} (h : w.read file = .error e) (log : List Message) :
    readText w file log = .error (refusedEnd (FilePath.normalize file) log e) := by
  rw [readText, h]
  exact bind_of_error (fromSystem_error _ e log)

/-! ## Commands -/

namespace Command

def operand : Command → Text
  | format file _ | check file | exportTo file _ | importFrom file => file

/-- Whether the command works on what is typed in. -/
def isTyped : Command → Bool
  | importFrom file => file == ['-']
  | format .. | check _ | exportTo .. => false

def input (w : World) (c : Command) : Run Text :=
  if c.isTyped then Run.pure (unifyNewlines w.input) else readText w c.operand

/-- Does what a command asks for. -/
def run (w : World) (settings : Settings) : Command → Run Outcome
  | format file mode => runFormat w settings.format file mode
  | check file => runCheck w file
  | exportTo file target => runExport w settings.exporting file target
  | importFrom file => runImport w settings.format file

/-- The indent of the lines that a command lays out for a text, if it lays out any. -/
def indent? (l : Libraries) (settings : Settings) (s : Text) : Command → Option Int
  | format .. => some settings.format.indentSize
  | check _ => none
  | exportTo .. => if (Template.read s).hasErrors then none else some settings.exporting.indentSize
  | importFrom _ =>
    (importNodesWith l.markup s).toOption.map fun _ => settings.format.indentSize

/-- The command imports a selection that cannot be read. -/
def Refuses (l : Libraries) (s : Text) (e : Markup.SelectionError) (c : Command) : Prop :=
  ∃ file, c = importFrom file ∧ importNodesWith l.markup s = .error e

/-- What becomes of a command whose lines cannot be indented. -/
def indentFailure (e : IndentError) : Command → Failure
  | importFrom _ => .unwritable (.indent e)
  | format .. | check _ | exportTo .. => .indent e

/-- What a command writes into a file. -/
def written (settings : Settings) (s : Text) : Command → Option (Text × Text)
  | format file .write =>
    let f := Offside.format settings.format s
    if f.changed s then some (file, f.text) else none
  | format _ .print | format _ .check | check _ | exportTo .. | importFrom _ => none

/-- Whether a command finds that the template has to be mended. -/
def complains (settings : Settings) (s : Text) : Command → Bool
  | format _ .check => (Offside.format settings.format s).changed s
  | check _ | exportTo .. => (Template.read s).hasErrors
  | format _ .print | format _ .write | importFrom _ => false

/-- Only a template that is formatted is written. -/
theorem eq_format_of_written (h : c.written settings s ≠ none) :
    ∃ file, c = format file .write := by
  cases c with
  | format file mode =>
    cases mode with
    | write => exact ⟨file, rfl⟩
    | print | check => exact (h rfl).elim
  | check file | exportTo file target | importFrom file => exact (h rfl).elim

/-- A command without a text stops. -/
theorem run_of_input_error {e : Outcome ⊕ Failure} (h : c.input w log = .error e) :
    c.run w settings log = .error e := by
  cases c with
  | format file mode => exact bind_of_error h
  | check file => exact bind_of_error h
  | exportTo file target => exact bind_of_error h
  | importFrom file =>
    rw [run, runImport]
    rw [input, isTyped] at h
    split
    · next htyped =>
      rw [if_pos htyped] at h
      cases h
    · next htyped =>
      rw [if_neg htyped] at h
      exact bind_of_error h

/-- A command has come to an outcome. -/
def Ends (w : World) (settings : Settings) (s : Text) (log : List Message) (c : Command) : Prop :=
  ∃ output log', c.run w settings log = .ok
    (⟨if c.complains settings s then 1 else 0, output, log', c.written settings s⟩, log')

def importEnd (log : List Message) :
    Except ImportError Imported → Except (Outcome ⊕ Failure) (Outcome × List Message)
  | .error (.selection e) => .error (.inl ⟨2, [], log ++ [.plain (e.message ++ ['\n'])], none⟩)
  | .error (.template e) => .error (.inr (.unwritable e))
  | .ok imported =>
    let log := log ++ imported.warnings.map .warning
    .ok (⟨0, imported.text, log, none⟩, log)

/-- What an import comes to is what the library comes to on the selection that has been read. -/
theorem run_importFrom (h : (importFrom file).input w log = .ok (s, log)) :
    (importFrom file).run w settings log =
      importEnd log (importMarkupWith w.libraries.markup settings.format s) := by
  rw [input, isTyped] at h
  rw [run, runImport]
  generalize hr : importMarkupWith w.libraries.markup settings.format s = r
  by_cases htyped : (file == ['-']) = true
  · rw [if_pos htyped] at h ⊢
    rw [bind_of_ok h]
    simp only [hr]
    rcases r with (e | e) | imported <;> rfl
  · rw [if_neg htyped, operand] at h
    rw [if_neg htyped, bind_of_ok h]
    simp only [hr]
    rcases r with (e | e) | imported <;> rfl

/-- A selection that cannot be imported ends the run. -/
theorem run_of_refuses {e : Markup.SelectionError} (h : c.input w log = .ok (s, log))
    (he : c.Refuses w.libraries s e) : c.run w settings log =
      .error (.inl ⟨2, [], log ++ [.plain (e.message ++ ['\n'])], none⟩) := by
  obtain ⟨file, rfl, hnodes⟩ := he
  rw [run_importFrom h, importMarkupWith_eq, hnodes]
  rfl

/-- Lines that cannot be indented are a failure. -/
theorem run_of_indentError {e : IndentError} {size : Int} (h : c.input w log = .ok (s, log))
    (hsize : c.indent? w.libraries settings s = some size) (he : checkIndent size = .error e) :
    c.run w settings log = .error (.inr (c.indentFailure e)) := by
  cases c with
  | format file mode =>
    obtain rfl := Option.some.inj hsize
    have hread : readText w file log = .ok (s, log) := h
    simp only [run, runFormat, bind_of_ok hread, format?, he]
    rfl
  | check file => cases hsize
  | exportTo file target =>
    have hread : readText w file log = .ok (s, log) := h
    rw [indent?] at hsize
    split at hsize
    · cases hsize
    · next herrors =>
      obtain rfl := Option.some.inj hsize
      simp only [run, runExport, bind_of_ok hread, exportTemplate?, herrors, he]
      rfl
  | importFrom file =>
    rw [indent?] at hsize
    cases hnodes : importNodesWith w.libraries.markup s with
    | error e =>
      rw [hnodes] at hsize
      cases hsize
    | ok lowered =>
      rw [hnodes] at hsize
      obtain rfl := Option.some.inj hsize
      rw [run_importFrom h, importMarkupWith_eq, hnodes]
      simp only [he]
      rfl

/-- A file that cannot be written ends the run. -/
theorem run_of_refused {e : FileError} (h : c.input w log = .ok (s, log))
    (hindent : ∀ size ∈ c.indent? w.libraries settings s, checkIndent size = .ok ())
    (hwritten : c.written settings s ≠ none) (he : w.canWrite c.operand = .error e) :
    ∃ log', c.run w settings log =
      .error (refusedEnd (FilePath.normalize c.operand) log' e) := by
  obtain ⟨file, rfl⟩ := eq_format_of_written hwritten
  have hread : readText w file log = .ok (s, log) := h
  obtain ⟨f, hf⟩ : ∃ f, Offside.format settings.format s = f := ⟨_, rfl⟩
  have hchanged : f.changed s = true := by
    by_contra hchanged
    exact hwritten (by simp only [written, hf, if_neg hchanged])
  rw [operand] at he
  simp only [run, runFormat, bind_of_ok hread, format?, hindent _ rfl]
  simp only [Except.map, hf, Run.orFail, bind, Run.bind, Run.pure, hchanged, he]
  cases e with
  | unnameable =>
    by_cases hrespaced : f.respaced = true <;> simp only [hrespaced, if_true] <;>
      exact ⟨log, rfl⟩
  | missing | notDirectory | isDirectory | nameTooLong | refused number reason =>
    by_cases hrespaced : f.respaced = true <;> simp only [hrespaced, if_true] <;> exact ⟨_, rfl⟩

/-- Formatting comes to its outcome if lines can be indented and what is to be written can be. -/
theorem ends_format {mode : FormatMode} (hread : readText w file log = .ok (s, log))
    (hindent : checkIndent settings.format.indentSize = .ok ())
    (hwrite : (format file mode).written settings s ≠ none → w.canWrite file = .ok ()) :
    (format file mode).Ends w settings s log := by
  simp only [Ends, run, runFormat, bind_of_ok hread, format?, hindent]
  obtain ⟨f, hf⟩ : ∃ f, Offside.format settings.format s = f := ⟨_, rfl⟩
  have hsystem : mode = .write → f.changed s = true →
      fromSystem (FilePath.normalize file) (w.canWrite file) = Run.pure () := by
    rintro rfl hchanged
    rw [hwrite (by simp [written, hf, hchanged]), fromSystem]
  simp only [Except.map, hf, Run.orFail, bind, Run.bind, Run.pure, complains, written]
  cases mode with
  | print | check =>
    by_cases hchanged : f.changed s = true <;> by_cases hrespaced : f.respaced = true <;>
      simp only [hchanged, hrespaced, if_true] <;> exact ⟨_, _, rfl⟩
  | write =>
    by_cases hchanged : f.changed s = true
    · rw [hsystem rfl hchanged]
      by_cases hrespaced : f.respaced = true <;>
        simp only [hchanged, hrespaced, if_true] <;> exact ⟨_, _, rfl⟩
    · by_cases hrespaced : f.respaced = true <;>
        simp only [hchanged, hrespaced] <;> exact ⟨_, _, rfl⟩

theorem ends_check (hread : readText w file log = .ok (s, log)) :
    (check file).Ends w settings s log := by
  obtain ⟨report, hreport, herrors⟩ :=
    Report.exists_make file (Template.read s).template.id (Template.isError_read s)
  have hcode : (report.errors == 0) = !(Template.read s).hasErrors := by
    rw [herrors, Bool.eq_iff_iff, Bool.not_eq_true', ← Bool.not_eq_true, Template.hasErrors_read]
    simp
  rw [Ends, complains]
  simp only [run, runCheck, bind_of_ok hread, hreport, hcode]
  obtain ⟨b, hb⟩ : ∃ b, (Template.read s).hasErrors = b := ⟨_, rfl⟩
  rw [hb]
  cases b <;> exact ⟨_, _, rfl⟩

/-- Exporting comes to its outcome if lines can be indented; a failure needs no indent. -/
theorem ends_exportTo {target : Option Target} (hread : readText w file log = .ok (s, log))
    (hindent : (Template.read s).hasErrors = false →
      checkIndent settings.exporting.indentSize = .ok ()) :
    (exportTo file target).Ends w settings s log := by
  have hexport : exportTemplate? s target settings.exporting =
      .ok (exportTemplate s target settings.exporting) := by
    rw [exportTemplate?]
    cases herrors : (Template.read s).hasErrors with
    | true => rfl
    | false =>
      simp only [hindent herrors]
      rfl
  have hsuccess := isSuccess_exportTemplate s target settings.exporting
  rw [Ends, complains]
  simp only [run, runExport, bind_of_ok hread, hexport]
  generalize exportTemplate s target settings.exporting = e at hsuccess
  generalize (Template.read s).hasErrors = b at hsuccess
  cases e <;> cases b <;> simp only [Exported.isSuccess] at hsuccess
  · exact ⟨_, _, rfl⟩
  · cases hsuccess
  · cases hsuccess
  · exact ⟨_, _, rfl⟩

/-- Otherwise the command comes to an outcome, if what it writes can be written. -/
theorem ends (h : c.input w log = .ok (s, log)) (haccepts : ∀ e, ¬ c.Refuses w.libraries s e)
    (hindent : ∀ size ∈ c.indent? w.libraries settings s, checkIndent size = .ok ())
    (hwrite : c.written settings s ≠ none → w.canWrite c.operand = .ok ()) :
    c.Ends w settings s log := by
  cases c with
  | format file mode => exact ends_format h (hindent _ rfl) hwrite
  | check file => exact ends_check h
  | exportTo file target =>
    refine ends_exportTo h fun herrors => hindent _ ?_
    rw [indent?, herrors]
    rfl
  | importFrom file =>
    cases hnodes : importNodesWith w.libraries.markup s with
    | error e => exact (haccepts e ⟨file, rfl, hnodes⟩).elim
    | ok lowered =>
      rw [indent?, hnodes] at hindent
      rw [Ends, run_importFrom h, importMarkupWith_eq, hnodes]
      simp only [hindent _ rfl]
      exact ⟨_, _, rfl⟩

end Command

end Cli

end Offside
