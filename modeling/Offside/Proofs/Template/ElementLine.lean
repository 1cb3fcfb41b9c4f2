import Offside.Proofs.Template.Element

/-! Which lines are element lines. `IsElementLine` is the grammar of the whole line, and the reader
accepts just the lines that it allows; any other line is reported once. -/
namespace Offside

open Text

/-- Classes as they stand behind a name: a dot leads each of them, perhaps after blanks. -/
inductive LedClasses : List Text → Text → Prop
  | nil : LedClasses [] []
  | cons {gap t s : Text} {classes : List Text} : Blank gap → IsClass t → LedClasses classes s →
      LedClasses (t :: classes) (gap ++ '.' :: (t ++ s))

/-- The pipe with the text behind it, if there is one. -/
def pipePart (text : Option Text) : Text := text.elim [] ('|' :: ·)

/-- The grammar of element lines: a name, the classes, then perhaps a pipe with any text. Blanks
may stand in front of each dot, in front of the pipe and at the end. -/
structure IsElementLine (name : Text) (classes : List Text) (text : Option Text) (line : Text) :
    Prop where
  named : IsName name
  written : ∃ led gap, LedClasses classes led ∧ Blank gap ∧
    line = name ++ led ++ gap ++ pipePart text

namespace Selector

variable {classes : List Text} {pipe text : Option Text} {gap s : Text}

theorem Spells.blanks (hgap : Blank gap) (h : Spells classes pipe s) :
    Spells classes pipe (gap ++ s) := by
  induction gap with
  | nil => exact h
  | cons c gap ih =>
    have hc : isBlank c = true := hgap c List.mem_cons_self
    exact .blank hc (ih fun d hd => hgap d (List.mem_cons_of_mem c hd))

theorem Spells.led {led : Text} (hled : LedClasses classes led) (h : Spells [] pipe s) :
    Spells classes pipe (led ++ s) := by
  induction hled with
  | nil => exact h
  | cons hgap ht _ ih => simpa using (Spells.dot ht ih).blanks hgap

theorem spells_pipePart (text : Option Text) :
    Spells [] (text.map ('|' :: ·)) (pipePart text) := by
  cases text with
  | none => exact .done
  | some t => exact .pipe

/-- What may follow a name is the classes that are led by dots, and then the pipe. -/
theorem spells_iff : Spells classes (text.map ('|' :: ·)) s ↔
    ∃ led gap, LedClasses classes led ∧ Blank gap ∧ s = led ++ gap ++ pipePart text := by
  constructor
  · intro h
    generalize hpipe : text.map ('|' :: ·) = pipe at h
    induction h with
    | done =>
      obtain rfl := Option.map_eq_none_iff.mp hpipe
      exact ⟨[], [], .nil, blank_nil, rfl⟩
    | @blank c classes pipe s hc _ ih =>
      obtain ⟨led, gap, hled, hgap, rfl⟩ := ih hpipe
      have hcons : ∀ {g : Text}, Blank g → Blank (c :: g) :=
        fun hg => List.forall_mem_cons.mpr ⟨hc, hg⟩
      cases hled with
      | nil => exact ⟨[], c :: gap, .nil, hcons hgap, rfl⟩
      | cons hfirst ht hrest => exact ⟨_, gap, .cons (hcons hfirst) ht hrest, hgap, rfl⟩
    | pipe =>
      obtain ⟨t, rfl, ht⟩ := Option.map_eq_some_iff.mp hpipe
      exact ⟨[], [], .nil, blank_nil, ht.symm⟩
    | dot ht _ ih =>
      obtain ⟨led, gap, hled, hgap, rfl⟩ := ih hpipe
      exact ⟨_, gap, .cons blank_nil ht hled, hgap, by simp⟩
  · rintro ⟨led, gap, hled, hgap, rfl⟩
    rw [List.append_assoc]
    exact ((spells_pipePart text).blanks hgap).led hled

end Selector

namespace Node

variable {m : Mark} {line name : Text} {classes : List Text} {text : Option Text}

theorem isElementLine_iff : IsElementLine name classes text line ↔
    IsName name ∧ ∃ rest, line = name ++ rest ∧
      Selector.Spells classes (text.map ('|' :: ·)) rest := by
  constructor
  · rintro ⟨hname, led, gap, hled, hgap, rfl⟩
    exact ⟨hname, _, by simp only [List.append_assoc],
      Selector.spells_iff.mpr ⟨led, gap, hled, hgap, rfl⟩⟩
  · rintro ⟨hname, rest, rfl, hspells⟩
    obtain ⟨led, gap, hled, hgap, rfl⟩ := Selector.spells_iff.mp hspells
    exact ⟨hname, led, gap, hled, hgap, by simp only [List.append_assoc]⟩

/-- What stands in an element on its line: one inline text if there is a pipe, and otherwise
nothing. -/
inductive LineChildren : Option Text → List Node → List Diagnostic → Prop
  | none : LineChildren none [] []
  | text {t : Text} {place : Mark} {ps : List Part} {span : Option Span} {ds : List Diagnostic} :
      Pipe.read place .inline ('|' :: t) = (.text ps .inline span, ds) →
      LineChildren (some t) [.text ps .inline span] ds

/-- A line that the grammar allows is read as the element that it names. -/
theorem reading_of_isElementLine (h : IsElementLine name classes text line) (m : Mark) :
    ∃ children span ds, LineChildren text children ds ∧
      reading (readElement m line) = (some (.element name classes children (some span)), ds) := by
  obtain ⟨hname, rest, rfl, hspells⟩ := isElementLine_iff.mp h
  obtain ⟨p, span, hp, -, hread⟩ := readElement_of_spells hname hspells m
  rw [hread]
  cases text with
  | none =>
    obtain rfl := Option.map_eq_none_iff.mp hp
    exact ⟨[], span, [], .none, rfl⟩
  | some t =>
    obtain ⟨⟨place, _⟩, rfl, rfl⟩ := Option.map_eq_some_iff.mp hp
    exact ⟨_, span, _, .text rfl, rfl⟩

/-- What is read as an element is a line that the grammar allows. -/
theorem exists_isElementLine {n : Node} {ds : List Diagnostic}
    (h : readElement m line = .ok (n, ds)) :
    ∃ name classes text, IsElementLine name classes text line := by
  obtain ⟨name, classes, rest, pipe, span, rfl, hname, hspells, -⟩ := spells_of_readElement h
  cases hpipe : pipe.map Prod.snd with
  | none =>
    rw [hpipe] at hspells
    exact ⟨name, classes, none, isElementLine_iff.mpr ⟨hname, rest, rfl, hspells⟩⟩
  | some t =>
    rw [hpipe] at hspells
    obtain ⟨_, u, rfl, -⟩ := Selector.pipe_of_spells hspells
    exact ⟨name, classes, some u, isElementLine_iff.mpr ⟨hname, rest, rfl, hspells⟩⟩

/-- An element is read from just the lines that the grammar allows, with the name and the classes
of the line and with a text if it has a pipe. Any other line is reported once, as an element that is
not in order, and nothing is read from it. -/
theorem reading_readElement (m : Mark) (line : Text) :
    ((reading (readElement m line)).1.isSome = true ↔
      ∃ name classes text, IsElementLine name classes text line) ∧
    (∀ name classes text, IsElementLine name classes text line →
      ∃ children span ds, LineChildren text children ds ∧
        reading (readElement m line) = (some (.element name classes children (some span)), ds)) ∧
    ((∀ name classes text, ¬ IsElementLine name classes text line) →
      ∃ e, e.code = some .invalidElement ∧ reading (readElement m line) = (none, [e])) := by
  refine ⟨⟨?_, ?_⟩, fun name classes text h => reading_of_isElementLine h m, fun hnone => ?_⟩
  · intro hsome
    cases h : readElement m line with
    | error e => simp [h, reading] at hsome
    | ok r => exact exists_isElementLine h
  · rintro ⟨name, classes, text, h⟩
    obtain ⟨children, span, ds, -, hread⟩ := reading_of_isElementLine h m
    rw [hread]
    rfl
  · cases h : readElement m line with
    | error e =>
      obtain ⟨k, p, length, hp, rfl⟩ := exists_diagnose_of_readElement h
      exact ⟨_, congrArg some hp, rfl⟩
    | ok r =>
      obtain ⟨name, classes, text, hline⟩ := exists_isElementLine h
      exact (hnone name classes text hline).elim

end Node

end Offside
