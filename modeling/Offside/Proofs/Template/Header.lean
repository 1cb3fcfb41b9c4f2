import Offside.Proofs.Diagnostic
import Offside.Proofs.Template.Bare
import Offside.Proofs.Text.Lines
import Offside.Template.Header

/-! The lines of the header. Each of them is read back from what is written of what it says, and
nothing that can be seen on it is lost. -/
namespace Offside

open Text

structure IsIdentifier (name : Text) : Prop where
  starts : ∃ c s, name = c :: s ∧ isIdentifierStart c = true
  chars : ∀ c ∈ name, isAsciiWord c = true

structure IsField (f : PropsField) : Prop where
  name : IsIdentifier f.name
  trimmed : Trimmed f.typeText
  oneLine : OneLine f.typeText

/-- What a class of an alias consists of. -/
def isAliasChar (c : Char) : Bool := isAsciiWord c || c == '-'

structure IsAlias (a : ClassAlias) : Prop where
  name : IsIdentifier a.name
  ne_nil : a.classes ≠ []
  classes : ∀ t ∈ a.classes, t ≠ [] ∧ ∀ c ∈ t, isAliasChar c = true

def PropsField.written (o : Layout) (f : PropsField) : Text :=
  f.name ++ (if f.optional then ['?'] else []) ++ (if o.spacedProps then [':', ' '] else [':']) ++
    f.typeText

def ClassAlias.written (a : ClassAlias) : Text :=
  a.name ++ [' ', '=', ' '] ++ a.classes.flatMap ('.' :: ·)

theorem PropsBlock.lines_eq (o : Layout) (p : PropsBlock) : p.lines o =
    ['p', 'r', 'o', 'p', 's'] :: p.fields.map (indentation o.indentSize 1 ++ ·.written o) := by
  simp [PropsBlock.lines, PropsField.written]

theorem AliasBlock.lines_eq (o : Layout) (b : AliasBlock) : b.lines o =
    ['c', 'l', 'a', 's', 's', 'e', 's'] ::
      b.aliases.map (indentation o.indentSize 1 ++ ·.written) := by
  simp [AliasBlock.lines, ClassAlias.written]

theorem solid_props : Solid ['p', 'r', 'o', 'p', 's'] := by simp [Solid, isBlank]

theorem solid_classes : Solid ['c', 'l', 'a', 's', 's', 'e', 's'] := by simp [Solid, isBlank]

variable {m : Mark} {line rest name v : Text} {e : Diagnostic}

/-! ## The id -/

namespace TemplateId

theorem solid_of_isValid (h : isValid v = true) : Solid v := by
  cases v with
  | nil => cases h
  | cons c s =>
    simp only [isValid, Bool.and_eq_true, List.all_eq_true, Bool.or_eq_true, beq_iff_eq] at h
    intro d hd
    rcases List.mem_cons.mp hd with rfl | hd
    · refine isBlank_of_isAlphanum ?_
      simp [Char.isAlphanum, h.1]
    · rcases h.2 d hd with hw | rfl
      · exact isBlank_of_isAsciiWord hw
      · rfl

theorem ne_nil_of_isValid (h : isValid v = true) : v ≠ [] := by
  rintro rfl
  cases h

theorem read_eq_ok {at_ : Mark} (h : read m line = .ok (at_, v)) :
    isValid v = true ∧ trim (line.drop 3) = v ∧ at_ = m.right (3 + margin (line.drop 3)) := by
  rw [read] at h
  split at h
  · next hv =>
    obtain ⟨rfl, rfl⟩ := Prod.mk.inj (Except.ok.inj h)
    exact ⟨hv, rfl, rfl⟩
  · cases h

theorem read_ok {at_ : Mark} (h : read m line = .ok (at_, v)) :
    isValid v = true ∧ at_.line = m.line ∧ ink (line.drop 3) = v := by
  obtain ⟨hv, htrim, rfl⟩ := read_eq_ok h
  refine ⟨hv, rfl, ?_⟩
  rw [← ink_trim, htrim, ink_of_solid (solid_of_isValid hv)]

theorem rejects_of_read (h : read m line = .error e) : e.Rejects m line := by
  rw [read] at h
  split at h
  · cases h
  · obtain rfl := Except.error.inj h
    exact Diagnostic.rejects_diagnose m line (by decide)

theorem trimmed_written (hv : isValid v = true) :
    Trimmed (['#', 'i', 'd', ' '] ++ v) ∧ OneLine (['#', 'i', 'd', ' '] ++ v) := by
  have hsolid := solid_of_isValid hv
  have hid : OneLine ['#', 'i', 'd', ' '] := by simp [OneLine]
  refine ⟨⟨by simp, startsSolid_cons.mpr rfl, ?_⟩, hid.append hsolid.oneLine⟩
  exact hsolid.endsSolid.append (ne_nil_of_isValid hv)

/-- A valid id is read as it is written. -/
theorem read_write (hv : isValid v = true) (m : Mark) :
    ∃ at_ : Mark, at_.line = m.line ∧ read m (['#', 'i', 'd', ' '] ++ v) = .ok (at_, v) := by
  have ht := (solid_of_isValid hv).trimmed (ne_nil_of_isValid hv)
  have hrest : (['#', 'i', 'd', ' '] ++ v).drop 3 = ' ' :: v := rfl
  refine ⟨m.right (3 + margin (' ' :: v)), rfl, ?_⟩
  rw [read, hrest]
  simp only [ht.trim_cons_space, hv, if_true]

end TemplateId

/-! ## Names -/

theorem isAsciiWord_of_isIdentifierStart {c : Char} (h : isIdentifierStart c = true) :
    isAsciiWord c = true := by
  simp only [isIdentifierStart, Bool.or_eq_true, beq_iff_eq] at h
  simp only [isAsciiWord, Char.isAlphanum, Bool.or_eq_true, beq_iff_eq]
  tauto

theorem solid_of_isIdentifier (h : IsIdentifier name) : Solid name :=
  fun c hc => isBlank_of_isAsciiWord (h.chars c hc)

/-- What is cut off a line is an identifier and stands at its front. -/
theorem cutIdentifier?_eq_some (h : cutIdentifier? line = some (name, rest)) :
    IsIdentifier name ∧ line = name ++ rest := by
  rw [cutIdentifier?.eq_def] at h
  split at h
  · next c s =>
    split at h
    · next hc =>
      obtain ⟨rfl, rfl⟩ := Prod.mk.inj (Option.some.inj h)
      refine ⟨⟨⟨c, s.takeWhile isAsciiWord, ?_, hc⟩, ?_⟩, List.takeWhile_append_dropWhile.symm⟩
      · rw [List.takeWhile_cons_of_pos (isAsciiWord_of_isIdentifierStart hc)]
      · exact fun d hd => List.mem_takeWhile_imp hd
    · cases h
  · cases h

/-- An identifier is cut off where it ends. -/
theorem cutIdentifier?_append (hn : IsIdentifier name)
    (hr : ∀ c ∈ rest.head?, isAsciiWord c = false) :
    cutIdentifier? (name ++ rest) = some (name, rest) := by
  obtain ⟨c, s, hcs, hc⟩ := hn.starts
  have htake : (name ++ rest).takeWhile isAsciiWord = name := by
    rw [List.takeWhile_append_of_pos hn.chars]
    cases rest with
    | nil => simp
    | cons d rest => simp [hr d rfl]
  have hdrop : (name ++ rest).dropWhile isAsciiWord = rest := by
    rw [List.dropWhile_append_of_pos hn.chars]
    cases rest with
    | nil => rfl
    | cons d rest => simp [hr d rfl]
  rw [cutIdentifier?.eq_def]
  split
  · next d u he =>
    obtain rfl : c = d := by
      rw [hcs] at he
      exact (List.cons.inj he).1
    rw [if_pos hc, htake, hdrop]
  · next he => simp [hcs] at he

/-! ## Fields -/

namespace PropsField

/-- Cuts off the question mark of an optional field. -/
def cutQuestion : Text → Bool × Text
  | '?' :: r => (true, r)
  | r => (false, r)

theorem cutQuestion_spec (s : Text) :
    ink s = (if (cutQuestion s).1 then ['?'] else []) ++ ink (cutQuestion s).2 ∧
      ∀ c ∈ (cutQuestion s).2, c ∈ s := by
  rw [cutQuestion.eq_def]
  split
  · next r => exact ⟨ink_cons_of_solid rfl r, fun c => List.mem_cons_of_mem _⟩
  · exact ⟨rfl, fun c => id⟩

/-- What a field says behind its name. -/
def finish? (name : Text) (optional : Bool) : Text → Option (Text × Bool × Text)
  | ':' :: r => some (name, optional, trim r)
  | _ => none

/-- How the line of a field is taken apart. -/
theorem read_eq_ok {f : PropsField} (h : PropsField.read m line = .ok f) :
    ∃ rest r, line = f.name ++ rest ∧ IsIdentifier f.name ∧ (cutQuestion rest).1 = f.optional ∧
      trimStart (cutQuestion rest).2 = ':' :: r ∧ trim r = f.typeText ∧ f.typeText ≠ [] ∧
      f.span = some (m.span line.length) := by
  rw [PropsField.read] at h
  dsimp only at h
  split at h
  · cases h
  · cases h
  · next name optional typeText hne hform =>
    obtain rfl := Except.ok.inj h
    obtain ⟨⟨name', rest⟩, hcut, hrest⟩ := Option.bind_eq_some_iff.mp hform
    obtain ⟨hname, rfl⟩ := cutIdentifier?_eq_some hcut
    have hfinish : finish? name' (cutQuestion rest).1 (trimStart (cutQuestion rest).2) =
        some (name, optional, typeText) := hrest
    rw [finish?.eq_def] at hfinish
    split at hfinish
    · next r hr =>
      obtain ⟨rfl, hoptional, htype⟩ : name' = name ∧ (cutQuestion rest).1 = optional ∧
          trim r = typeText := by
        simpa using hfinish
      exact ⟨rest, r, rfl, hname, hoptional, hr, htype, hne, rfl⟩
    · cases hfinish

/-- A field that is read has a name and a type and shows all ink of its line. -/
theorem read_ok {f : PropsField} (h : PropsField.read m line = .ok f) (hl : OneLine line) :
    IsField f ∧ (∃ span : Span, f.span = some span ∧ span.start.line = m.line) ∧
      ink line = f.name ++ (if f.optional then ['?'] else []) ++ ':' :: ink f.typeText := by
  obtain ⟨rest, r, rfl, hname, hoptional, hr, htype, hne, hspan⟩ := read_eq_ok h
  obtain ⟨hink, hsub⟩ := cutQuestion_spec rest
  rw [← htype] at hne
  have hmem : ∀ c ∈ r, c ∈ f.name ++ rest := by
    intro c hc
    obtain ⟨a, -, ha⟩ := exists_trimStart (cutQuestion rest).2
    refine List.mem_append_right _ (hsub c ?_)
    rw [ha, hr]
    simp [hc]
  have hline : OneLine (trim r) := (hl.subset hmem).subset (subset_trim r)
  refine ⟨⟨hname, htype ▸ trimmed_trim hne, htype ▸ hline⟩, ⟨_, hspan, rfl⟩, ?_⟩
  rw [ink_append, hink, ink_of_solid (solid_of_isIdentifier hname),
    ← ink_trimStart (cutQuestion rest).2, hr, ink_cons_of_solid rfl, ← ink_trim r, htype,
    hoptional, List.append_assoc]

theorem rejects_of_read (h : PropsField.read m line = .error e) : e.Rejects m line := by
  rw [PropsField.read] at h
  dsimp only at h
  split at h
  · obtain rfl := Except.error.inj h
    exact Diagnostic.rejects_diagnose m line (by decide)
  · obtain rfl := Except.error.inj h
    exact Diagnostic.rejects_diagnose m line (by decide)
  · cases h

theorem trimmed_written {f : PropsField} (h : IsField f) (o : Layout) :
    Trimmed (f.written o) ∧ OneLine (f.written o) := by
  obtain ⟨c, u, hname, -⟩ := h.name.starts
  have hsolid := solid_of_isIdentifier h.name
  have hne : f.name ≠ [] := by simp [hname]
  have hquestion : OneLine (if f.optional then ['?'] else []) := by split <;> simp [OneLine]
  have hcolon : OneLine (if o.spacedProps then [':', ' '] else [':']) := by
    split <;> simp [OneLine]
  refine ⟨?_, ((hsolid.oneLine.append hquestion).append hcolon).append h.oneLine⟩
  have htrim := (hsolid.trimmed hne).append h.trimmed
    ((if f.optional then ['?'] else []) ++ (if o.spacedProps then [':', ' '] else [':']))
  rwa [← List.append_assoc] at htrim

/-- A field is read as it is written. -/
theorem read_write {f : PropsField} (h : IsField f) (o : Layout) (m : Mark) :
    ∃ g, PropsField.read m (f.written o) = .ok g ∧ g.bare = f.bare := by
  obtain ⟨name, optional, typeText, span⟩ := f
  obtain ⟨hname, htrimmed, -⟩ := h
  obtain ⟨colon, hcolon⟩ : ∃ colon : Text, colon = if o.spacedProps then [':', ' '] else [':'] :=
    ⟨_, rfl⟩
  obtain ⟨r, hr, htype⟩ : ∃ r, colon ++ typeText = ':' :: r ∧ trim r = typeText := by
    rw [hcolon]
    split
    · exact ⟨' ' :: typeText, rfl, htrimmed.trim_cons_space⟩
    · exact ⟨typeText, rfl, htrimmed.trim_eq⟩
  have hstart : trimStart (':' :: r) = ':' :: r := trimStart_eq_self (startsSolid_cons.mpr rfl)
  have hw : PropsField.written o ⟨name, optional, typeText, span⟩ =
      name ++ ((if optional then ['?'] else []) ++ ':' :: r) := by
    rw [PropsField.written, ← hcolon, ← hr]
    simp
  have hhead : ∀ c ∈ ((if optional then ['?'] else []) ++ ':' :: r).head?,
      isAsciiWord c = false := by
    cases optional <;> simp <;> decide
  obtain ⟨line, hline⟩ : ∃ line, line = name ++ ((if optional then ['?'] else []) ++ ':' :: r) :=
    ⟨_, rfl⟩
  refine ⟨⟨name, optional, typeText, some (m.span line.length)⟩, ?_, rfl⟩
  rw [hw, ← hline, PropsField.read]
  simp only [hline, cutIdentifier?_append hname hhead]
  obtain ⟨c, s, rfl⟩ := List.exists_cons_of_ne_nil htrimmed.ne_nil
  cases optional <;> simp [hstart, htype]

end PropsField

/-! ## Aliases -/

namespace ClassAlias

theorem intercalate_flatMap {ts : List Text} (h : ts ≠ []) :
    ts.flatMap ('.' :: ·) = '.' :: ['.'].intercalate ts := by
  induction ts with
  | nil => exact (h rfl).elim
  | cons t ts ih =>
    cases ts with
    | nil => simp
    | cons u us =>
      rw [List.flatMap_cons, ih (by simp)]
      simp [List.intercalate]

/-- A text is put together again from what stands between its dots. -/
theorem intercalate_splitWhen (s : Text) :
    ['.'].intercalate (splitWhen (· == '.') s) = s := by
  induction s with
  | nil => rfl
  | cons c s ih =>
    obtain ⟨t, ts, ht⟩ := List.exists_cons_of_ne_nil (splitWhen_ne_nil (· == '.') s)
    by_cases hc : c = '.'
    · subst hc
      rw [splitWhen, if_pos (by simp)]
      rw [ht] at ih ⊢
      simpa [List.intercalate] using ih
    · rw [splitWhen_cons_of_neg (by simpa using hc) ht]
      rw [ht] at ih
      cases ts with
      | nil => simpa using ih
      | cons u us => simpa [List.intercalate] using ih

/-- Cuts off the dot that the classes of an alias may start with. -/
def cutDot (s : Text) : Text :=
  match s with
  | '.' :: r => r
  | _ => s

theorem cutDot_spec (s : Text) :
    s = '.' :: cutDot s ∨ s.head? ≠ some '.' ∧ cutDot s = s := by
  rw [cutDot.eq_def]
  split
  · exact Or.inl rfl
  · next hdot =>
    refine Or.inr ⟨?_, rfl⟩
    intro hhead
    obtain ⟨r, rfl⟩ := List.head?_eq_some_iff.mp hhead
    exact hdot r rfl

theorem classes?_eq (s : Text) :
    classes? s = if (splitWhen (· == '.') (cutDot s)).all (fun t => !t.isEmpty && t.all isAliasChar)
      then some (splitWhen (· == '.') (cutDot s)) else none := rfl

/-- What the right side of an alias says is what is written of it, but for the first dot. -/
theorem classes?_eq_some {s : Text} {ts : List Text} (h : classes? s = some ts) :
    ts ≠ [] ∧ (∀ t ∈ ts, t ≠ [] ∧ ∀ c ∈ t, isAliasChar c = true) ∧
      (ts.flatMap ('.' :: ·) = s ∨ s.head? ≠ some '.' ∧ ts.flatMap ('.' :: ·) = '.' :: s) := by
  rw [classes?_eq] at h
  split at h
  · next hall =>
    obtain rfl := Option.some.inj h
    have hne := splitWhen_ne_nil (· == '.') (cutDot s)
    refine ⟨hne, ?_, ?_⟩
    · intro t ht
      simpa using List.all_eq_true.mp hall t ht
    · rw [intercalate_flatMap hne, intercalate_splitWhen]
      rcases cutDot_spec s with hs | ⟨hhead, hs⟩
      · exact Or.inl hs.symm
      · exact Or.inr ⟨hhead, by rw [hs]⟩
  · cases h

/-- Classes with a dot before each are read as they are. -/
theorem classes?_write {ts : List Text} (hne : ts ≠ [])
    (h : ∀ t ∈ ts, t ≠ [] ∧ ∀ c ∈ t, isAliasChar c = true) :
    classes? (ts.flatMap ('.' :: ·)) = some ts := by
  have hdot : ∀ t ∈ ts, '.' ∉ t := by
    intro t ht hmem
    have := (h t ht).2 '.' hmem
    revert this
    decide
  have hall : (ts.all fun t => !t.isEmpty && t.all isAliasChar) = true := by
    rw [List.all_eq_true]
    intro t ht
    simpa using h t ht
  rw [intercalate_flatMap hne, classes?_eq, cutDot, splitWhen_intercalate hne hdot, if_pos hall]

theorem solid_right {a : ClassAlias} (h : IsAlias a) : Solid (a.classes.flatMap ('.' :: ·)) := by
  intro c hc
  obtain ⟨t, ht, hc⟩ := List.mem_flatMap.mp hc
  rcases List.mem_cons.mp hc with rfl | hc
  · rfl
  · have := (h.classes t ht).2 c hc
    simp only [isAliasChar, Bool.or_eq_true, beq_iff_eq] at this
    rcases this with hw | rfl
    · exact isBlank_of_isAsciiWord hw
    · rfl

theorem trimmed_written {a : ClassAlias} (h : IsAlias a) :
    Trimmed a.written ∧ OneLine a.written := by
  obtain ⟨c, u, hname, -⟩ := h.name.starts
  obtain ⟨t, ts, hclasses⟩ := List.exists_cons_of_ne_nil h.ne_nil
  have hsolid := solid_of_isIdentifier h.name
  have hright := solid_right h
  have hne : a.name ≠ [] := by simp [hname]
  have hequals : OneLine [' ', '=', ' '] := by simp [OneLine]
  refine ⟨?_, (hsolid.oneLine.append hequals).append hright.oneLine⟩
  exact (hsolid.trimmed hne).append (hright.trimmed (by simp [hclasses])) [' ', '=', ' ']

/-- How the line of an alias is taken apart. -/
theorem read_eq_ok {a : ClassAlias} (h : ClassAlias.read m line = .ok a) :
    ∃ rest r, line = a.name ++ rest ∧ IsIdentifier a.name ∧ trimStart rest = '=' :: r ∧
      classes? (trim r) = some a.classes ∧ a.span = some (m.span line.length) ∧
      a.nameSpan = some (m.span a.name.length) := by
  rw [ClassAlias.read] at h
  split at h
  · cases h
  · next name right hform =>
    split at h
    · cases h
    · next classes hclasses =>
      obtain rfl := Except.ok.inj h
      obtain ⟨⟨name', rest⟩, hcut, hrest⟩ := Option.bind_eq_some_iff.mp hform
      obtain ⟨hname, rfl⟩ := cutIdentifier?_eq_some hcut
      dsimp only at hrest
      split at hrest
      · next r hr =>
        obtain ⟨rfl, rfl⟩ : name' = name ∧ trim r = right := by simpa using hrest
        exact ⟨rest, r, rfl, hname, hr, hclasses, rfl, rfl⟩
      · cases hrest

/-- The right side of an alias as it stands on its line, which may lack the first dot. -/
theorem read_ok {a : ClassAlias} (h : ClassAlias.read m line = .ok a) :
    IsAlias a ∧ (∃ span : Span, a.span = some span ∧ span.start.line = m.line) ∧
      ∃ right, ink line = a.name ++ '=' :: right ∧
        (a.classes.flatMap ('.' :: ·) = right ∨
          right.head? ≠ some '.' ∧ a.classes.flatMap ('.' :: ·) = '.' :: right) := by
  obtain ⟨rest, r, rfl, hname, hr, hclasses, hspan, -⟩ := read_eq_ok h
  obtain ⟨hne, hchars, hright⟩ := classes?_eq_some hclasses
  have halias : IsAlias a := ⟨hname, hne, hchars⟩
  refine ⟨halias, ⟨_, hspan, rfl⟩, trim r, ?_, hright⟩
  have hsolid : Solid (trim r) := by
    have := solid_right halias
    rcases hright with he | ⟨-, he⟩
    · rwa [← he]
    · rw [he] at this
      exact fun c hc => this c (List.mem_cons_of_mem _ hc)
  rw [ink_append, ink_of_solid (solid_of_isIdentifier hname), ← ink_trimStart rest, hr,
    ink_cons_of_solid rfl, ← ink_trim r, ink_of_solid hsolid]

theorem rejects_of_read (h : ClassAlias.read m line = .error e) : e.Rejects m line := by
  rw [ClassAlias.read] at h
  split at h
  · obtain rfl := Except.error.inj h
    exact Diagnostic.rejects_diagnose m line (by decide)
  · split at h
    · obtain rfl := Except.error.inj h
      exact Diagnostic.rejects_diagnose m line (by decide)
    · cases h

/-- An alias is read as it is written. -/
theorem read_write {a : ClassAlias} (h : IsAlias a) (m : Mark) :
    ∃ b, ClassAlias.read m a.written = .ok b ∧ b.bare = a.bare := by
  obtain ⟨name, classes, span, nameSpan⟩ := a
  have hsolid := solid_right h
  obtain ⟨hname, hne, hchars⟩ := h
  obtain ⟨right, hright⟩ : ∃ right, right = classes.flatMap ('.' :: ·) := ⟨_, rfl⟩
  have htrim : trim (' ' :: right) = right := by
    refine Trimmed.trim_cons_space (Solid.trimmed (hright ▸ hsolid) ?_)
    rw [hright, intercalate_flatMap hne]
    simp
  have hw : ClassAlias.written ⟨name, classes, span, nameSpan⟩ =
      name ++ ' ' :: '=' :: ' ' :: right := by
    rw [ClassAlias.written, hright]
    simp
  have hstart : trimStart (' ' :: '=' :: ' ' :: right) = '=' :: ' ' :: right := by
    rw [← List.singleton_append, trimStart_append_of_blank blank_space]
    exact trimStart_eq_self (startsSolid_cons.mpr rfl)
  have hclasses : classes? right = some classes := hright ▸ classes?_write hne hchars
  have hcut : cutIdentifier? (name ++ ' ' :: '=' :: ' ' :: right) =
      some (name, ' ' :: '=' :: ' ' :: right) :=
    cutIdentifier?_append hname (by simp [isAsciiWord])
  obtain ⟨line, hline⟩ : ∃ line, line = name ++ ' ' :: '=' :: ' ' :: right := ⟨_, rfl⟩
  refine ⟨⟨name, classes, some (m.span line.length), some (m.span name.length)⟩, ?_, rfl⟩
  rw [hw, ← hline, ClassAlias.read]
  simp only [hline, hcut]
  simp [hstart, htrim, hclasses]

end ClassAlias

end Offside
