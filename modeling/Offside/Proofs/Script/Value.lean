import Offside.Proofs.Script.Grammar

/-! What a condition comes to. An `&&` and an `||` give one of their operands, so that a condition
whose last operand is a piece of markup can come to the markup. -/
namespace Offside.Script

/-- A truth value, or the piece of markup. -/
inductive Value
  | truth (b : Bool)
  | body
deriving DecidableEq, Repr

/-- The names that are true, and whether the piece of markup counts as true. -/
structure Facts where
  name : Text → Bool
  body : Bool

def Value.counts (ρ : Facts) : Value → Bool
  | .truth b => b
  | .body => ρ.body

mutual

def Operand.value (ρ : Facts) : Operand → Value
  | .name x => .truth (ρ.name x)
  | .not o => .truth (!(o.value ρ).counts ρ)
  | .group e => e.value ρ
  | .body => .body

/-- What a conjunction comes to: the first operand that counts as false, or else the last one. -/
def Conjunction.value (ρ : Facts) : Conjunction → Value
  | .single o => o.value ρ
  | .and c o => if (c.value ρ).counts ρ then o.value ρ else c.value ρ

/-- What a choice comes to: the first conjunction that counts as true, or else the last one. -/
def Choice.value (ρ : Facts) : Choice → Value
  | .single c => c.value ρ
  | .or e c => if (e.value ρ).counts ρ then e.value ρ else c.value ρ

end

variable {ρ : Facts} {e : Choice}

mutual

theorem Operand.value_ne_body (ρ : Facts) :
    ∀ o : Operand, .body ∉ o.tokens → o.value ρ ≠ .body
  | .name _, _ => nofun
  | .not _, _ => nofun
  | .group e, h => e.value_ne_body ρ fun hmem => h (by simp [Operand.tokens, hmem])
  | .body, h => (h (by simp [Operand.tokens])).elim

theorem Conjunction.value_ne_body (ρ : Facts) :
    ∀ c : Conjunction, .body ∉ c.tokens → c.value ρ ≠ .body
  | .single o, h => o.value_ne_body ρ h
  | .and c o, h => by
    rw [Conjunction.value]
    split
    · exact o.value_ne_body ρ fun hmem => h (by simp [Conjunction.tokens, hmem])
    · exact c.value_ne_body ρ fun hmem => h (by simp [Conjunction.tokens, hmem])

/-- Only a condition with markup in it comes to markup. -/
theorem Choice.value_ne_body (ρ : Facts) :
    ∀ e : Choice, .body ∉ e.tokens → e.value ρ ≠ .body
  | .single c, h => c.value_ne_body ρ h
  | .or e c, h => by
    rw [Choice.value]
    split
    · exact e.value_ne_body ρ fun hmem => h (by simp [Choice.tokens, hmem])
    · exact c.value_ne_body ρ fun hmem => h (by simp [Choice.tokens, hmem])

end

namespace Choice

theorem counts_eq_true : (e.value ρ).counts ρ = true ↔
    (∃ d ∈ e.earlier?, (d.value ρ).counts ρ = true) ∨ (e.last.value ρ).counts ρ = true := by
  cases e with
  | single c => simp [earlier?, last, value]
  | or d c =>
    simp only [earlier?, last, value, Option.mem_some_iff, exists_eq_left']
    by_cases hd : (d.value ρ).counts ρ = true
    · simp [hd]
    · simp [hd]

/-- The condition with `&&` and markup put behind its tokens. The `&&` goes to what stands behind
the last `||`. -/
def guarded : Choice → Choice
  | .single c => .single (.and c .body)
  | .or e c => .or e (.and c .body)

theorem tokens_guarded (e : Choice) : e.guarded.tokens = e.tokens ++ [.and, .body] := by
  cases e with
  | single c => rfl
  | or d c => simp [guarded, tokens, Conjunction.tokens, Operand.tokens]

/-- A guarded test shows its body if it counts and none of the earlier ones does. -/
theorem value_guarded_eq_body (h : .body ∉ e.tokens) : e.guarded.value ρ = .body ↔
    (¬ ∃ d ∈ e.earlier?, (d.value ρ).counts ρ = true) ∧ (e.last.value ρ).counts ρ = true := by
  cases e with
  | single c =>
    have hc := c.value_ne_body ρ h
    by_cases hcounts : (c.value ρ).counts ρ = true
    · simp [guarded, earlier?, last, value, Conjunction.value, Operand.value, hcounts]
    · simp [guarded, earlier?, last, value, Conjunction.value, hcounts, hc]
  | or d c =>
    have hd := d.value_ne_body ρ fun hmem => h (by simp [tokens, hmem])
    have hc := c.value_ne_body ρ fun hmem => h (by simp [tokens, hmem])
    by_cases hdcounts : (d.value ρ).counts ρ = true
    · simp [guarded, earlier?, value, hdcounts, hd]
    · by_cases hcounts : (c.value ρ).counts ρ = true
      · simp [guarded, earlier?, last, value, Conjunction.value, Operand.value, hdcounts, hcounts]
      · simp [guarded, earlier?, last, value, Conjunction.value, hdcounts, hcounts, hc]

/-- Markup is shown just if the condition is true, as long as nothing before the last `||` is. -/
theorem value_guarded_iff (h : .body ∉ e.tokens) :
    (e.guarded.value ρ = .body ↔ (e.value ρ).counts ρ = true) ↔
      ∀ d ∈ e.earlier?, (d.value ρ).counts ρ = false := by
  rw [value_guarded_eq_body h, counts_eq_true]
  have hnone : (¬ ∃ d ∈ e.earlier?, (d.value ρ).counts ρ = true) ↔
      ∀ d ∈ e.earlier?, (d.value ρ).counts ρ = false := by
    simp
  rw [← hnone]
  by_cases hearlier : ∃ d ∈ e.earlier?, (d.value ρ).counts ρ = true
  · simp only [hearlier, not_true, false_and, true_or, iff_true]
  · simp only [hearlier, not_false_eq_true, true_and, false_or]

end Choice

end Offside.Script
