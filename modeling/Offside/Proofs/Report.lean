import Mathlib.Data.List.Forall2
import Offside.Proofs.Json
import Offside.Report

/-! What another program reads in the report of a check: the template, each diagnostic with its
place, and how many of them are errors. -/
namespace Offside

open Text

/-- The value of the member with a name, if there is just one. -/
def Json.member? (name : Text) : Json → Option Json
  | .object members =>
    match members.filter (·.1 == name) with
    | [(_, value)] => some value
    | _ => none
  | _ => none

namespace Report

variable {d : Diagnostic} {ds : List Diagnostic} {e : Entry} {es : List Entry}

/-- Data that tells something if it is there, and else is null. -/
inductive TellsAny {α : Type} (tells : α → Json → Prop) : Option α → Json → Prop
  | nothing : TellsAny tells none .null
  | something {a : α} {j : Json} : tells a j → TellsAny tells (some a) j

/-- How a severity is told. -/
def severityWord : Offside.Severity → Text
  | .error => "error".toList
  | .warning => "warning".toList
  | .other name => name

structure TellsPosition (p : Position) (j : Json) : Prop where
  line : j.member? "line".toList = some (.integer p.line)
  column : j.member? "column".toList = some (.integer p.column)
  offset : j.member? "offset".toList = some (.integer p.offset)

structure TellsDiagnostic (d : Diagnostic) (j : Json) : Prop where
  severity : j.member? "severity".toList = some (.text (severityWord d.severity))
  message : j.member? "message".toList = some (.text d.message)
  code : ∃ v, j.member? "code".toList = some v ∧
    TellsAny (fun c v => v = .text c.label.toList) d.code v
  start : ∃ v, j.member? "start".toList = some v ∧
    TellsAny (fun span v => TellsPosition span.start v) d.span v
  stop : ∃ v, j.member? "end".toList = some v ∧
    TellsAny (fun span v => TellsPosition span.stop v) d.span v

/-- A report tells the template, its diagnostics in their order, how many of them are errors and how
many are not, and that all is well if there are no errors. -/
structure TellsCheck (file : Text) (templateId : Option Text) (ds : List Diagnostic) (j : Json) :
    Prop where
  file : j.member? "file".toList = some (.text file)
  templateId : ∃ v, j.member? "templateId".toList = some v ∧
    TellsAny (fun id v => v = .text id) templateId v
  diagnostics : ∃ js, j.member? "diagnostics".toList = some (.list js) ∧
    List.Forall₂ TellsDiagnostic ds js
  errors : j.member? "errors".toList = some (.integer (ds.countP (·.isError)))
  warnings : ∃ w : Nat, j.member? "warnings".toList = some (.integer w) ∧
    ds.countP (·.isError) + w = ds.length
  ok : j.member? "ok".toList = some (.boolean (ds.countP (·.isError) == 0))

theorem tellsPosition (p : Position) : TellsPosition p (positionData p) := by
  constructor <;> simp [Json.member?, positionData]

/-- What is written of something that may be missing. -/
theorem tellsAny_map {α : Type} {tells : α → Json → Prop} {f : α → Json}
    (h : ∀ a, tells a (f a)) (a : Option α) : TellsAny tells a ((a.map f).getD .null) := by
  cases a with
  | none => exact .nothing
  | some a => exact .something (h a)

theorem ofText?_eq (t : Option Text) : Json.ofText? t = (t.map Json.text).getD .null := by
  cases t <;> rfl

/-- An entry has what the diagnostic has. -/
theorem of_eq_ok (h : Entry.of d = .ok e) :
    e.message = d.message ∧ e.code = d.code ∧ e.span = d.span ∧
      e.severity.label = severityWord d.severity ∧ (e.severity == .error) = d.isError := by
  obtain ⟨severity, message, span, code, file⟩ := d
  cases severity with
  | error | warning =>
    obtain rfl := Except.ok.inj h
    exact ⟨rfl, rfl, rfl, rfl, rfl⟩
  | other name => cases h

/-- An entry tells its diagnostic. -/
theorem tellsDiagnostic (h : Entry.of d = .ok e) : TellsDiagnostic d e.data := by
  obtain ⟨hmessage, hcode, hspan, hseverity, -⟩ := of_eq_ok h
  constructor
  case severity => simp [Json.member?, Entry.data, hseverity]
  case message => simp [Json.member?, Entry.data, hmessage]
  case code =>
    refine ⟨.ofText? (e.code.map (·.label.toList)), by simp [Json.member?, Entry.data], ?_⟩
    rw [ofText?_eq, Option.map_map, hcode]
    apply tellsAny_map
    exact fun c => rfl
  case start =>
    refine ⟨(e.span.map fun span => positionData span.start).getD .null,
      by simp [Json.member?, Entry.data], ?_⟩
    rw [hspan]
    exact tellsAny_map (fun span => tellsPosition span.start) d.span
  case stop =>
    refine ⟨(e.span.map fun span => positionData span.stop).getD .null,
      by simp [Json.member?, Entry.data], ?_⟩
    rw [hspan]
    exact tellsAny_map (fun span => tellsPosition span.stop) d.span

/-! ## Reports -/

/-- Each diagnostic of a known severity has its entry. -/
theorem exists_entries (h : ∀ d ∈ ds, d.severity = .error ∨ d.severity = .warning) :
    ∃ es, ds.mapM Entry.of = .ok es ∧ List.Forall₂ (fun d e => Entry.of d = .ok e) ds es := by
  induction ds with
  | nil => exact ⟨[], rfl, .nil⟩
  | cons d ds ih =>
    obtain ⟨hd, hds⟩ := List.forall_mem_cons.mp h
    obtain ⟨es, hes, hall⟩ := ih hds
    obtain ⟨e, he⟩ : ∃ e, Entry.of d = .ok e := by
      rcases hd with hd | hd <;> exact ⟨_, by rw [Entry.of, hd]⟩
    refine ⟨e :: es, ?_, .cons he hall⟩
    simp [List.mapM_cons, he, hes, bind, Except.bind, pure, Except.pure]

theorem countP_entries (h : List.Forall₂ (fun d e => Entry.of d = .ok e) ds es) :
    es.countP (·.severity == .error) = ds.countP (·.isError) := by
  induction h with
  | nil => rfl
  | cons he _ ih => rw [List.countP_cons, List.countP_cons, ih, (of_eq_ok he).2.2.2.2]

/-- The data of a report tells the check. -/
theorem tellsCheck (file : Text) (templateId : Option Text)
    (h : List.Forall₂ (fun d e => Entry.of d = .ok e) ds es) :
    TellsCheck file templateId ds (data ⟨file, templateId, es⟩) := by
  have hcount := countP_entries h
  have hlength := h.length_eq
  have hle : ds.countP (·.isError) ≤ ds.length := List.countP_le_length
  constructor
  case file => simp [Json.member?, data]
  case templateId =>
    refine ⟨.ofText? templateId, by simp [Json.member?, data], ?_⟩
    rw [ofText?_eq]
    apply tellsAny_map
    exact fun id => rfl
  case diagnostics =>
    refine ⟨es.map Entry.data, by simp [Json.member?, data], ?_⟩
    rw [List.forall₂_map_right_iff]
    exact h.imp fun _ _ => tellsDiagnostic
  case errors => simp [Json.member?, data, errors, hcount]
  case warnings =>
    refine ⟨es.length - es.countP (·.severity == .error), ?_, by omega⟩
    simp [Json.member?, data, warnings, errors]
  case ok => simp [Json.member?, data, errors, hcount]

/-- Each number of the place can be written. -/
def Writable (p : Position) : Prop :=
  Numeral.isWritable p.line = true ∧ Numeral.isWritable p.column = true ∧
    Numeral.isWritable p.offset = true

theorem isWritable_positionData (p : Position) :
    (positionData p).isWritable = true ↔ Writable p := by
  simp [positionData, Json.isWritable, Json.haveWritable, Writable]

theorem isWritable_entryData (e : Entry) : e.data.isWritable = true ↔
    ∀ span ∈ e.span, Writable span.start ∧ Writable span.stop := by
  obtain ⟨severity, message, code, span⟩ := e
  have hcode : (Json.ofText? (code.map (·.label.toList))).isWritable = true := by
    cases code <;> rfl
  cases span with
  | none => simp [Entry.data, Json.isWritable, Json.haveWritable, hcode]
  | some span =>
    simp [Entry.data, Json.isWritable, Json.haveWritable, hcode, isWritable_positionData]

theorem areWritable_iff (js : List Json) :
    Json.areWritable js = true ↔ ∀ j ∈ js, j.isWritable = true := by
  induction js with
  | nil => simp [Json.areWritable]
  | cons j js ih => simp [Json.areWritable, ih]

/-- The number of diagnostics is not below that of the errors, nor below that of the warnings. -/
theorem isWritable_count {n k : Nat} (h : n ≤ k) (hk : Numeral.isWritable k = true) :
    Numeral.isWritable n = true := by
  rw [Numeral.isWritable, decide_eq_true_iff, Int.natAbs_natCast] at hk ⊢
  omega

theorem isWritable_data (r : Report) (hlength : Numeral.isWritable r.entries.length = true) :
    r.data.isWritable = true ↔
      ∀ e ∈ r.entries, ∀ span ∈ e.span, Writable span.start ∧ Writable span.stop := by
  have herrors : Numeral.isWritable r.errors = true :=
    isWritable_count List.countP_le_length hlength
  have hwarnings : Numeral.isWritable r.warnings = true :=
    isWritable_count (Nat.sub_le ..) hlength
  have hid : (Json.ofText? r.templateId).isWritable = true := by
    cases r.templateId <;> rfl
  have hprotocol : Numeral.isWritable 1 = true := by decide +kernel
  simp only [data, Json.isWritable, Json.haveWritable, herrors, hwarnings, hid, hprotocol,
    Bool.true_and, Bool.and_true, areWritable_iff, List.forall_mem_map, isWritable_entryData]

/-- The text of a report is written if its numbers can be. -/
theorem write?_eq_ok (r : Report) : r.write? = .ok r.write ↔ r.data.isWritable = true := by
  rw [write?]
  cases r.data.isWritable <;> simp

/-- An entry is where its diagnostic is. -/
theorem forall_span (h : List.Forall₂ (fun d e => Entry.of d = .ok e) ds es) (P : Span → Prop) :
    (∀ e ∈ es, ∀ span ∈ e.span, P span) ↔ ∀ d ∈ ds, ∀ span ∈ d.span, P span := by
  induction h with
  | nil => simp
  | cons he _ ih => rw [List.forall_mem_cons, List.forall_mem_cons, ih, (of_eq_ok he).2.2.1]

/-- The text of a report is one line, and whoever reads it finds the template, the diagnostics as
they are, and their numbers. It is written if no number in it is too long. -/
theorem read?_write_make (file : Text) (templateId : Option Text)
    (h : ∀ d ∈ ds, d.severity = .error ∨ d.severity = .warning) :
    ∃ r j, make file templateId ds = .ok r ∧ Unbroken r.write ∧ Json.read? r.write = some j ∧
      TellsCheck file templateId ds j ∧ (∀ t, r.write? = .ok t → t = r.write) ∧
        (Numeral.isWritable ds.length = true → (r.write? = .ok r.write ↔
          ∀ d ∈ ds, ∀ span ∈ d.span, Writable span.start ∧ Writable span.stop)) := by
  obtain ⟨es, hes, hall⟩ := exists_entries h
  refine ⟨⟨file, templateId, es⟩, data ⟨file, templateId, es⟩, ?_, Json.unbroken_write _,
    Json.read?_write _, tellsCheck file templateId hall, ?_, ?_⟩
  · rw [make, hes]
    rfl
  · intro t ht
    rw [write?] at ht
    split at ht
    · exact (Except.ok.inj ht).symm
    · cases ht
  · intro hlength
    rw [hall.length_eq] at hlength
    rw [write?_eq_ok, isWritable_data ⟨file, templateId, es⟩ hlength]
    exact forall_span hall fun span => Writable span.start ∧ Writable span.stop

/-- An error at a place and a warning without one, with quotes, controls and letters in them. -/
def mixedDiagnostics : List Diagnostic :=
  [⟨.error, "a \"quoted\" \\ é\n".toList, some ⟨⟨2, 3, 10⟩, ⟨2, 4, 11⟩⟩, some .oddIndent, none⟩,
    ⟨.warning, "\x00 😀".toList, none, none, none⟩]

theorem read?_write_make_mixedDiagnostics :
    (∀ d ∈ mixedDiagnostics, d.severity = .error ∨ d.severity = .warning) ∧
    ∃ r j, make "\"é\n".toList none mixedDiagnostics = .ok r ∧ Unbroken r.write ∧
      Json.read? r.write = some j ∧ TellsCheck "\"é\n".toList none mixedDiagnostics j ∧
        r.write? = .ok r.write := by
  have hknown : ∀ d ∈ mixedDiagnostics, d.severity = .error ∨ d.severity = .warning := by
    simp [mixedDiagnostics]
  obtain ⟨r, j, hr, hline, hread, htells, -, hwrite⟩ := read?_write_make "\"é\n".toList none hknown
  refine ⟨hknown, r, j, hr, hline, hread, htells, (hwrite (by decide +kernel)).mpr ?_⟩
  have hstart : Writable ⟨2, 3, 10⟩ :=
    ⟨by decide +kernel, by decide +kernel, by decide +kernel⟩
  have hstop : Writable ⟨2, 4, 11⟩ := ⟨by decide +kernel, by decide +kernel, by decide +kernel⟩
  simp [mixedDiagnostics, hstart, hstop]

end Report

end Offside
