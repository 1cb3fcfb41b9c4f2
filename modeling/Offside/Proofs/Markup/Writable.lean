import Offside.Proofs.Ir.RoundTrip
import Offside.Proofs.Markup.Lowered
import Offside.Proofs.Markup.Lowers

/-! Whatever markup is lowered to can be written as a template: there is no conditional in it and no
node that templates do not know. So an import fails over the selection, or over an indent that
nothing can be written with. -/
namespace Offside

open Text

/-- A node that markup is lowered to. Conditionals and foreign nodes are none. -/
inductive Ir.Node.FromMarkup : Ir.Node → Prop
  | element {tag : Text} {classes : List Text} {attributes : List Ir.Attribute}
      {children : List Ir.Node} : (∀ c ∈ classes, c ≠ [] ∧ Solid c) →
      (∀ n ∈ children, FromMarkup n) → FromMarkup (.element tag classes attributes children)
  | text {value : Text} : Spaced value → FromMarkup (.text value)
  | expression {value : Text} : FromMarkup (.expression value)
  | fragment {children : List Ir.Node} : (∀ n ∈ children, FromMarkup n) →
      FromMarkup (.fragment children)

theorem Ir.Node.FromMarkup.obstacle?_eq_none {n : Ir.Node} (h : n.FromMarkup) :
    Ir.obstacle? n = none := by
  induction h with
  | element _ _ ih => exact obstacleOf?_eq_none ih
  | text _ => rfl
  | expression => rfl
  | fragment _ ih => exact obstacleOf?_eq_none ih

theorem Ir.of_mem_classTokens? {value c : Text} {classes : List Text}
    (h : Ir.classTokens? value = some classes) (hc : c ∈ classes) : c ≠ [] ∧ Solid c := by
  rw [Ir.classTokens?] at h
  split at h
  · next w ws hwords =>
    obtain rfl := Option.some.inj h
    obtain ⟨inner, -, hinner⟩ := Option.map_eq_some_iff.mp hwords
    rw [← hinner] at hc
    exact mem_words hc
  · cases h

/-- A class that an attribute lists is solid. -/
theorem Ir.of_mem_splitClasses {as : List Ir.Attribute} {c : Text}
    (h : c ∈ (Ir.splitClasses as).2) : c ≠ [] ∧ Solid c := by
  obtain ⟨a, -, hc⟩ := List.mem_flatMap.mp h
  cases hclasses : a.classes? with
  | none =>
    rw [hclasses] at hc
    cases hc
  | some classes =>
    rw [hclasses, Option.getD_some] at hc
    rw [Ir.Attribute.classes?.eq_def] at hclasses
    split at hclasses
    · split at hclasses
      · exact of_mem_classTokens? hclasses hc
      · cases hclasses
    · cases hclasses

namespace Markup

variable {doc : Text} {ns tag : List Node} {ks inner : List Ir.Node} {as : List Ir.Attribute}
  {ws : List Text}

theorem fromMarkup_lowerRun (doc : Text) (place : Option (Nat × Nat)) :
    ∀ k ∈ lowerRun doc place, k.FromMarkup := by
  rw [lowerRun.eq_def]
  split
  · simp
  split
  · simp
  · next hne =>
    intro k hk
    obtain rfl := List.mem_singleton.mp hk
    exact .text (spaced_squeeze hne)

theorem fromMarkup_elementOf (doc : Text) (tag : List Node) (as : List Ir.Attribute)
    (h : ∀ k ∈ inner, k.FromMarkup) : (elementOf doc tag as inner).FromMarkup := by
  have hclasses : ∀ c ∈ (Ir.splitClasses as).2, c ≠ [] ∧ Solid c :=
    fun c => Ir.of_mem_splitClasses
  rw [elementOf, Ir.Node.ofParts, Ir.Node.normalizeClasses_of_solid hclasses]
  exact .element hclasses h

theorem Lowers.fromMarkup (h : Lowers doc ns ks ws) : ∀ k ∈ ks, k.FromMarkup := by
  induction h with
  | nil => simp
  | text _ _ _ _ ih => exact List.forall_mem_append.mpr ⟨fromMarkup_lowerRun doc _, ih⟩
  | element _ _ _ _ _ ihinner ih =>
    exact List.forall_mem_cons.mpr ⟨fromMarkup_elementOf doc _ _ ihinner, ih⟩
  | fragment _ _ _ ihinner ih => exact List.forall_mem_cons.mpr ⟨.fragment ihinner, ih⟩
  | selfClosing _ _ _ ih =>
    exact List.forall_mem_cons.mpr ⟨fromMarkup_elementOf doc _ _ (by simp), ih⟩
  | empty _ _ _ ih => exact ih
  | kept _ _ _ _ ih => exact List.forall_mem_cons.mpr ⟨.expression, ih⟩
  | replaced _ _ ih => exact List.forall_mem_cons.mpr ⟨.expression, ih⟩

theorem fromMarkup_lower (doc : Text) (ns : List Node) : ∀ k ∈ (lower doc ns).value, k.FromMarkup :=
  (lowers_lower doc ns).fromMarkup

end Markup

/-! ## Imports -/

variable {read? : Text → Option Markup.Node} {selection : Text}

theorem fromMarkup_importNodesWith {lowered : Markup.Lowered (List Ir.Node)}
    (h : importNodesWith read? selection = .ok lowered) : ∀ k ∈ lowered.value, k.FromMarkup := by
  rw [importNodesWith] at h
  cases hread : Markup.Selection.readWith read? selection with
  | error e =>
    rw [hread] at h
    cases h
  | ok r =>
    rw [hread] at h
    obtain rfl := Except.ok.inj h
    exact Markup.fromMarkup_lower r.1 r.2

/-- An import fails only over the selection or over the indent. -/
theorem importMarkupWith_eq (read? : Text → Option Markup.Node) (o : Layout) (selection : Text) :
    importMarkupWith read? o selection =
      match importNodesWith read? selection with
      | .error e => .error (.selection e)
      | .ok lowered =>
        match checkIndent o.indentSize with
        | .error e => .error (.template (.indent e))
        | .ok () => .ok ⟨lowered.value, lowered.warnings ++ Ir.warningsOf lowered.value,
            Ir.writeTemplate o lowered.value⟩ := by
  rw [importMarkupWith]
  cases hnodes : importNodesWith read? selection with
  | error e => rfl
  | ok lowered =>
    have hwritable : Ir.obstacleOf? lowered.value = none :=
      Ir.Node.obstacleOf?_eq_none fun k hk =>
        (fromMarkup_importNodesWith hnodes k hk).obstacle?_eq_none
    cases hindent : checkIndent o.indentSize with
    | error e =>
      simp [Ir.writeTemplate?, hindent, Except.mapError, bind, Except.bind]
    | ok u =>
      simp [Ir.writeTemplate?, hindent, hwritable, Except.mapError, bind, Except.bind, pure,
        Except.pure]

/-- An import comes to one of two ends, whatever the layout: the selection is refused, or it is
lowered. What it is lowered to is written as a template unless there is no indent of that size. -/
inductive Settles (nodes : Except Markup.SelectionError (Markup.Lowered (List Ir.Node)))
    (imported : Layout → Except ImportError Imported) : Prop
  | refused {e : Markup.SelectionError} : nodes = .error e →
      (∀ o, imported o = .error (.selection e)) → Settles nodes imported
  | lowered {lowered : Markup.Lowered (List Ir.Node)} : nodes = .ok lowered →
      (∀ k ∈ lowered.value, k.FromMarkup) →
      (∀ o, checkIndent o.indentSize = .ok () → ∃ i, imported o = .ok i ∧ i.nodes = lowered.value) →
      (∀ o e, checkIndent o.indentSize = .error e → imported o = .error (.template (.indent e))) →
      (∃ i, imported {} = .ok i ∧ i.nodes = lowered.value) → Settles nodes imported

/-- What an import comes to is settled by the reader and the layout. -/
theorem settles_importMarkupWith (read? : Text → Option Markup.Node) (selection : Text) :
    Settles (importNodesWith read? selection) (importMarkupWith read? · selection) := by
  cases hnodes : importNodesWith read? selection with
  | error e => exact .refused rfl fun o => by rw [importMarkupWith_eq, hnodes]
  | ok lowered =>
    have himported : ∀ o, checkIndent o.indentSize = .ok () →
        ∃ i, importMarkupWith read? o selection = .ok i ∧ i.nodes = lowered.value := by
      intro o hindent
      rw [importMarkupWith_eq, hnodes]
      simp only [hindent]
      exact ⟨_, rfl, rfl⟩
    refine .lowered rfl (fromMarkup_importNodesWith hnodes) himported ?_ (himported {} (by decide))
    intro o e hindent
    rw [importMarkupWith_eq, hnodes]
    simp only [hindent]

/-- A selection is refused if the program around it cannot be read or shows nothing. -/
theorem importNodesWith_eq_error_iff {e : Markup.SelectionError} :
    importNodesWith read? selection = .error e ↔
      e = .syntaxError ∧ read? (Markup.Selection.wrap selection) = none ∨
      e = .noContent ∧ ∃ program, read? (Markup.Selection.wrap selection) = some program ∧
        Markup.Selection.content (Markup.Selection.wrap selection) program = [] := by
  rw [importNodesWith, Markup.Selection.readWith]
  generalize Markup.Selection.wrap selection = doc
  cases hread : read? doc with
  | none => simp [bind, Except.bind, @eq_comm _ _ e]
  | some program =>
    cases hcontent : Markup.Selection.content doc program with
    | nil => simp [hcontent, bind, Except.bind, @eq_comm _ _ e]
    | cons n ns => simp [hcontent, bind, Except.bind, pure, Except.pure]

/-- An import fails over a selection that is no markup, and over nothing else but the indent. It
comes to no conditional and no foreign node; its texts are trimmed and have no blanks in them but
single spaces, and its classes have none. This is so with any reader of programs. -/
theorem import_settles (selection : Text) :
    Settles (importNodes selection) (importMarkup · selection) ∧
    ∀ read? : Text → Option Markup.Node,
      Settles (importNodesWith read? selection) (importMarkupWith read? · selection) ∧
      ∀ e, importNodesWith read? selection = .error e ↔
        e = .syntaxError ∧ read? (Markup.Selection.wrap selection) = none ∨
        e = .noContent ∧ ∃ program, read? (Markup.Selection.wrap selection) = some program ∧
          Markup.Selection.content (Markup.Selection.wrap selection) program = [] :=
  ⟨settles_importMarkupWith Markup.Program.read? selection,
    fun read? => ⟨settles_importMarkupWith read? selection,
      fun _ => importNodesWith_eq_error_iff⟩⟩

end Offside
