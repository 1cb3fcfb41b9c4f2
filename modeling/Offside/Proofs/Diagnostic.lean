import Offside.Diagnostic

/-! Results that may be errors: what a step has done if the steps after it give a value or an error,
where a diagnostic is reported, and which lines are rejected as a whole. -/
namespace Offside

variable {ε α β : Type}

theorem eq_ok_of_bind {x : Except ε α} {f : α → Except ε β} {b : β}
    (h : (x >>= f) = .ok b) : ∃ a, x = .ok a ∧ f a = .ok b := by
  cases x with
  | error e => cases h
  | ok a => exact ⟨a, rfl, h⟩

theorem eq_error_of_bind {x : Except ε α} {f : α → Except ε β} {e : ε}
    (h : (x >>= f) = .error e) : x = .error e ∨ ∃ a, x = .ok a ∧ f a = .error e := by
  cases x with
  | error e' =>
    obtain rfl : e' = e := Except.error.inj h
    exact Or.inl rfl
  | ok a => exact Or.inr ⟨a, rfl, h⟩

theorem eq_ok_of_map {x : Except ε α} {f : α → β} {b : β} (h : x.map f = .ok b) :
    ∃ a, x = .ok a ∧ f a = b := by
  cases x with
  | error e => cases h
  | ok a => exact ⟨a, rfl, Except.ok.inj h⟩

/-- An error whose span starts on a line. -/
structure Diagnostic.OnLine (line : Nat) (d : Diagnostic) : Prop where
  isError : d.isError = true
  starts : ∃ span, d.span = some span ∧ span.start.line = line

namespace Mark

variable (m : Mark) (p : Problem) (n : Nat)

theorem diagnose_onLine : (m.diagnose p n).OnLine m.line := ⟨rfl, _, rfl, rfl⟩

theorem diagnose_right_onLine (k : Nat) : ((m.right k).diagnose p n).OnLine m.line :=
  (m.right k).diagnose_onLine p n

@[simp] theorem right_right (j k : Nat) : (m.right j).right k = m.right (j + k) := by
  simp [right, Nat.add_assoc]

@[simp] theorem right_line (k : Nat) : (m.right k).line = m.line := rfl

@[simp] theorem span_start_line : (m.span n).start.line = m.line := rfl

end Mark

namespace Diagnostic

variable {m : Mark} {line : Text} {d : Diagnostic}

/-- A line is rejected as a whole, for what it says. -/
def Rejects (m : Mark) (line : Text) (d : Diagnostic) : Prop :=
  ∃ p : Problem, p.code ∉ [.tabIndent, .oddIndent, .emptyBranch, .emptyFor] ∧
    d = m.diagnose p line.length

theorem rejects_diagnose (m : Mark) (line : Text) {p : Problem}
    (hp : p.code ∉ [.tabIndent, .oddIndent, .emptyBranch, .emptyFor]) :
    (m.diagnose p line.length).Rejects m line :=
  ⟨p, hp, rfl⟩

theorem Rejects.onLine (h : d.Rejects m line) : d.OnLine m.line := by
  obtain ⟨p, -, rfl⟩ := h
  exact m.diagnose_onLine p _

end Diagnostic

end Offside
