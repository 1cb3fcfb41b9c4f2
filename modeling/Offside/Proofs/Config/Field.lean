import Mathlib
import Offside.Config

/-! Everything that can be set by a configuration: where it stands in the data, which values it can
have, and that setting it leaves all else as it is. -/
namespace Offside.Config

open Data

/-! ## Fields -/

inductive Part
  | format
  | exporting
deriving DecidableEq

def Part.name : Part → Text
  | format => "format".toList
  | exporting => "export".toList

theorem Part.name_injective : Function.Injective Part.name := by
  intro p q h
  cases p <;> cases q <;> first | rfl | exact absurd h (by decide)

inductive Kind
  | indent
  | flag
  | target

/-- Everything that can be set. -/
inductive Field
  | formatIndent
  | compactSelectors
  | spaceAroundPipe
  | spacedProps
  | target
  | exportIndent
deriving DecidableEq

namespace Field

def part : Field → Part
  | formatIndent | compactSelectors | spaceAroundPipe | spacedProps => .format
  | target | exportIndent => .exporting

def key : Field → Text
  | formatIndent | exportIndent => "indent_size".toList
  | compactSelectors => "prefer_compact_selectors".toList
  | spaceAroundPipe => "space_around_pipe".toList
  | spacedProps => "normalize_props_spacing".toList
  | target => "target".toList

def kind : Field → Kind
  | formatIndent | exportIndent => .indent
  | compactSelectors | spaceAroundPipe | spacedProps => .flag
  | target => .target

def value (s : Settings) : Field → Value
  | formatIndent => .integer s.format.indentSize
  | compactSelectors => .boolean s.format.compactSelectors
  | spaceAroundPipe => .boolean s.format.spaceAroundPipe
  | spacedProps => .boolean s.format.spacedProps
  | target => .text s.exporting.target.label.toList
  | exportIndent => .integer s.exporting.indentSize

end Field

namespace Kind

/-- A value that a field can hold. -/
inductive Accepts : Kind → Value → Prop
  | indent {n : Int} : 0 ≤ n → Accepts indent (.integer n)
  | flag {b : Bool} : Accepts flag (.boolean b)
  /-- The name of a flavour, in letters of either case. -/
  | target {s : Text} {t : Target} : s.map Char.toUpper = t.label.toList → Accepts target (.text s)

/-- What is wrong with a value that a field cannot hold. -/
def fault : Kind → Value → ConfigFault
  | indent, .integer n => .negative n
  | indent, v => .noInteger v
  | flag, v => .noBoolean v
  | target, v => .unknownTarget v

/-- What a field holds after a value is given for it. -/
def normal : Kind → Value → Value
  | target, .text s => .text (s.map Char.toUpper)
  | _, v => v

end Kind

/-! ## Values -/

variable {α : Type} {p : Part} {f g : Field} {x k : Value} {path : Text} {names : List Text}

theorem readIndent_of_accepts (path : Text) (h : Kind.indent.Accepts x) :
    ∃ n, readIndent path x = .ok n ∧ .integer n = x := by
  cases h with
  | @indent n h =>
    refine ⟨n, ?_, rfl⟩
    rw [readIndent, if_neg (by omega)]

theorem readIndent_of_not_accepts (h : ¬ Kind.indent.Accepts x) :
    readIndent path x = .error ⟨path, Kind.indent.fault x⟩ := by
  cases x with
  | integer n =>
    have hn : n < 0 := by
      by_contra hn
      exact h (.indent (by omega))
    rw [readIndent, if_pos hn]
    rfl
  | _ => rfl

theorem readFlag_of_accepts (path : Text) (h : Kind.flag.Accepts x) :
    ∃ b, readFlag path x = .ok b ∧ .boolean b = x := by
  cases h with
  | @flag b => exact ⟨b, rfl, rfl⟩

theorem readFlag_of_not_accepts (h : ¬ Kind.flag.Accepts x) :
    readFlag path x = .error ⟨path, Kind.flag.fault x⟩ := by
  cases x with
  | boolean b => exact (h .flag).elim
  | _ => rfl

/-- Two texts are equal in capital letters if they are in small letters, and the other way round. -/
theorem map_toUpper_eq_iff {s t : Text} :
    s.map Char.toUpper = t.map Char.toUpper ↔ s.map Char.toLower = t.map Char.toLower := by
  constructor
  · intro h
    have hlower := congrArg (List.map Char.toLower) h
    simpa [Function.comp_def] using hlower
  · intro h
    have hupper := congrArg (List.map Char.toUpper) h
    simpa [Function.comp_def] using hupper

theorem readTarget_text (path s : Text) : readTarget path (.text s) =
    if s.map Char.toUpper = Target.jsx.label.toList then .ok .jsx
    else if s.map Char.toUpper = Target.tsx.label.toList then .ok .tsx
    else .error ⟨path, .unknownTarget (.text s)⟩ := by
  have hjsx : s.map Char.toUpper = Target.jsx.label.toList ↔ s.map Char.toLower = "jsx".toList :=
    map_toUpper_eq_iff (t := "jsx".toList)
  have htsx : s.map Char.toUpper = Target.tsx.label.toList ↔ s.map Char.toLower = "tsx".toList :=
    map_toUpper_eq_iff (t := "tsx".toList)
  simp only [readTarget, hjsx, htsx, beq_iff_eq]

theorem readTarget_of_accepts (path : Text) (h : Kind.target.Accepts x) :
    ∃ t, readTarget path x = .ok t ∧ .text t.label.toList = Kind.target.normal x := by
  cases h with
  | @target s t h =>
    refine ⟨t, ?_, by rw [Kind.normal, h]⟩
    rw [readTarget_text, h]
    cases t <;> rfl

theorem readTarget_of_not_accepts (h : ¬ Kind.target.Accepts x) :
    readTarget path x = .error ⟨path, Kind.target.fault x⟩ := by
  cases x with
  | text s =>
    have hne : ∀ t : Target, s.map Char.toUpper ≠ t.label.toList := fun t ht => h (.target ht)
    rw [readTarget_text, if_neg (hne _), if_neg (hne _)]
    rfl
  | _ => rfl

/-! ## Parts -/

def Part.fields : Part → List Field
  | format => [.formatIndent, .compactSelectors, .spaceAroundPipe, .spacedProps]
  | exporting => [.target, .exportIndent]

theorem Part.mem_fields : f ∈ p.fields ↔ f.part = p := by
  cases p <;> cases f <;> decide

/-- How the fields of a part are set: `put` makes settings of the part. -/
structure Sets (p : Part) (put : α → Settings) (names : List Text)
    (set : α → Text → Text → Value → Except ConfigError α) : Prop where
  names_eq : names = p.fields.map Field.key
  /-- A value that the field accepts changes this field only. -/
  accepts : ∀ {f : Field} {x : Value} (a : α) (path : Text), f.part = p → f.kind.Accepts x →
    ∃ b, set a f.key path x = .ok b ∧ f.value (put b) = f.kind.normal x ∧
      ∀ g : Field, g.part = p → g ≠ f → g.value (put b) = g.value (put a)
  rejects : ∀ {f : Field} {x : Value} (a : α) (path : Text), f.part = p → ¬ f.kind.Accepts x →
    set a f.key path x = .error ⟨path, f.kind.fault x⟩

def withFlag (o : Layout) (b : Bool) : Field → Layout
  | .compactSelectors => { o with compactSelectors := b }
  | .spaceAroundPipe => { o with spaceAroundPipe := b }
  | .spacedProps => { o with spacedProps := b }
  | _ => o

theorem setFormat_flag (o : Layout) (path : Text) (x : Value) (h : f.kind = .flag) :
    setFormat o f.key path x = (readFlag path x).map fun b => withFlag o b f := by
  cases f with
  | compactSelectors =>
    rw [setFormat, if_neg (by decide), if_pos (by decide)]
    rfl
  | spaceAroundPipe =>
    rw [setFormat, if_neg (by decide), if_neg (by decide), if_pos (by decide)]
    rfl
  | spacedProps =>
    rw [setFormat, if_neg (by decide), if_neg (by decide), if_neg (by decide), if_pos (by decide)]
    rfl
  | _ => cases h

theorem eq_formatIndent_or (h : f.part = .format) : f = .formatIndent ∨ f.kind = .flag := by
  cases f with
  | formatIndent => exact Or.inl rfl
  | target | exportIndent => cases h
  | _ => exact Or.inr rfl

/-- The members of the part for the layout set the fields of the layout. -/
theorem sets_format : Sets .format (fun o => { format := o }) formatKeys setFormat where
  names_eq := rfl
  accepts {f x} o path hf hx := by
    rcases eq_formatIndent_or hf with rfl | hflag
    · obtain ⟨n, hn, rfl⟩ := readIndent_of_accepts path hx
      refine ⟨{ o with indentSize := n }, congrArg (Except.map _) hn, rfl, fun g hg hne => ?_⟩
      cases g <;> first | rfl | exact (hne rfl).elim
    · rw [hflag] at hx
      obtain ⟨b, hb, rfl⟩ := readFlag_of_accepts path hx
      refine ⟨withFlag o b f, ?_, ?_, fun g hg hne => ?_⟩
      · rw [setFormat_flag o path _ hflag, hb]
        rfl
      · cases f <;> first | rfl | cases hflag
      · cases f <;> cases g <;> first | rfl | exact (hne rfl).elim
  rejects {f x} o path hf hx := by
    rcases eq_formatIndent_or hf with rfl | hflag
    · exact congrArg (Except.map _) (readIndent_of_not_accepts hx)
    · rw [hflag] at hx
      rw [setFormat_flag o path x hflag, readFlag_of_not_accepts hx, hflag]
      rfl

/-- The members of the part for the export set the fields of the export. -/
theorem sets_exporting : Sets .exporting (fun o => { exporting := o }) exportKeys setExport where
  names_eq := rfl
  accepts {f x} o path hf hx := by
    cases f with
    | exportIndent =>
      obtain ⟨n, hn, rfl⟩ := readIndent_of_accepts path hx
      refine ⟨{ o with indentSize := n }, congrArg (Except.map _) hn, rfl, fun g hg hne => ?_⟩
      cases g <;> first | rfl | exact (hne rfl).elim
    | target =>
      obtain ⟨t, ht, hx⟩ := readTarget_of_accepts path hx
      refine ⟨{ o with target := t }, congrArg (Except.map _) ht, hx, fun g hg hne => ?_⟩
      cases g <;> first | rfl | exact (hne rfl).elim
    | _ => cases hf
  rejects {f x} o path hf hx := by
    cases f with
    | exportIndent => exact congrArg (Except.map _) (readIndent_of_not_accepts hx)
    | target => exact congrArg (Except.map _) (readTarget_of_not_accepts hx)
    | _ => cases hf

theorem Field.eq_of_key (hpart : f.part = g.part) (hkey : f.key = g.key) : f = g := by
  cases f <;> cases g <;> first | rfl | exact absurd hkey (by decide) | cases hpart

theorem isKey_iff_exists : isKey names k = true ↔ ∃ s ∈ names, k = .text s := by
  cases k <;> simp [isKey]

theorem Sets.isKey_iff {put : α → Settings}
    {set : α → Text → Text → Value → Except ConfigError α} (h : Sets p put names set) :
    isKey names k = true ↔ ∃ f : Field, f.part = p ∧ k = .text f.key := by
  simp only [isKey_iff_exists, h.names_eq, List.mem_map, Part.mem_fields]
  constructor
  · rintro ⟨-, ⟨f, hf, rfl⟩, rfl⟩
    exact ⟨f, hf, rfl⟩
  · rintro ⟨f, hf, rfl⟩
    exact ⟨f.key, ⟨f, hf, rfl⟩, rfl⟩

end Offside.Config
