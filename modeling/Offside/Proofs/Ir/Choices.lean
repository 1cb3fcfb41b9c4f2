import Offside.Proofs.Ir.Guard
import Offside.Proofs.Script.Lines

/-! A chain of branches. It is written as choices one behind the other, and the expression that is
written comes to the branch that is to be shown. -/
namespace Offside.Ir

open Script

variable {size : Int} {level k : Nat} {tested : Bool} {test : Option Text}
  {tests : List (Option Text)} {ts : List Token} {e : Choice} {b : Branch Node}
  {bs : List (Branch Node)} {ρ : Facts}

/-- The condition that a test is, if there is one and it can be read. -/
def condition? (test : Option Text) : Option Choice :=
  test.bind fun s => (lex s).bind Script.read

/-- There is a test, and it is true. -/
def holds (ρ : Facts) (test : Option Text) : Bool :=
  (condition? test).any fun e => (e.value ρ).counts ρ

/-- The place of the branch to show among branches with these tests: of the first whose test is
true, or else of the one without a test. -/
def shown? (ρ : Facts) (tests : List (Option Text)) : Option Nat :=
  (tests.findIdx? (holds ρ)).or (tests.findIdx? (·.isNone))

/-- Every test can be read, and only the last branch can lack one. -/
structure Chained (tests : List (Option Text)) : Prop where
  readable : ∀ test ∈ tests, test ≠ none → condition? test ≠ none
  tested : ∀ test ∈ tests.dropLast, test ≠ none

/-- The expression for branches with these tests, the first of which has the `k`-th body. -/
def chain (k : Nat) : List (Option Text) → Conditional
  | [] => .plain .null
  | test :: tests =>
    match condition? test with
    | none => .body k
    | some e => .cond e (.body k) (chain (k + 1) tests)

namespace Chained

theorem tail (h : Chained (test :: tests)) : Chained tests where
  readable test' htest := h.readable test' (List.mem_cons_of_mem test htest)
  tested test' htest := by
    cases tests with
    | nil => cases htest
    | cons test'' tests => exact h.tested test' (List.mem_cons_of_mem test htest)

/-- A branch without a test is the last one. -/
theorem eq_nil (h : Chained (none :: tests)) : tests = [] := by
  cases tests with
  | nil => rfl
  | cons test tests => exact (h.tested none List.mem_cons_self rfl).elim

theorem exists_condition {s : Text} (h : Chained (some s :: tests)) :
    ∃ e ts, condition? (some s) = some e ∧ lex s = some ts ∧ e.tokens = ts := by
  obtain ⟨e, he⟩ := Option.ne_none_iff_exists'.mp
    (h.readable (some s) List.mem_cons_self (Option.some_ne_none s))
  have hbind : (lex s).bind Script.read = some e := he
  obtain ⟨ts, hts, hread⟩ := Option.bind_eq_some_iff.mp hbind
  exact ⟨e, ts, he, hts, tokens_of_read hread⟩

end Chained

/-! ## What the expression comes to -/

theorem shown?_of_holds (h : holds ρ test = true) (tests : List (Option Text)) :
    shown? ρ (test :: tests) = some 0 := by
  simp [shown?, List.findIdx?_cons, h]

theorem shown?_none (ρ : Facts) : shown? ρ [none] = some 0 := rfl

theorem shown?_of_not_holds {s : Text} (h : holds ρ (some s) = false)
    (tests : List (Option Text)) : shown? ρ (some s :: tests) = (shown? ρ tests).map (· + 1) := by
  simp [shown?, List.findIdx?_cons, h, Option.map_or]

/-- The expression comes to the body of the branch to show, and to nothing if there is none. -/
theorem value_chain (h : Chained tests) (k : Nat) (ρ : Facts) :
    (chain k tests).value ρ = (shown? ρ tests).elim .nothing fun i => .body (i + k) := by
  induction tests generalizing k with
  | nil => rfl
  | cons test tests ih =>
    cases test with
    | none =>
      obtain rfl := h.eq_nil
      rw [shown?_none]
      simp [chain, condition?, Conditional.value]
    | some s =>
      obtain ⟨e, -, he, -, -⟩ := h.exists_condition
      have hholds : holds ρ (some s) = (e.value ρ).counts ρ := by rw [holds, he, Option.any_some]
      simp only [chain, he, Conditional.value]
      by_cases hcounts : (e.value ρ).counts ρ = true
      · rw [if_pos hcounts, shown?_of_holds (hholds.trans hcounts)]
        simp
      · rw [if_neg hcounts, ih h.tail, shown?_of_not_holds (by simp [hholds, hcounts])]
        cases shown? ρ tests with
        | none => rfl
        | some i => simp [Nat.add_assoc, Nat.add_comm 1]

/-- Every body has its place in the expression, in the order of the branches. -/
theorem bodies_chain (h : Chained tests) (k : Nat) :
    (chain k tests).bodies = List.range' k tests.length := by
  induction tests generalizing k with
  | nil => rfl
  | cons test tests ih =>
    cases test with
    | none =>
      obtain rfl := h.eq_nil
      rfl
    | some s =>
      obtain ⟨e, -, he, -, -⟩ := h.exists_condition
      simp only [chain, he, Conditional.bodies, ih h.tail]
      rfl

/-! ## What the expression is written as -/

/-- A test, with nothing but a margin in front of it. -/
theorem lexCode_test {s : Text} (h : lex s = some ts) (n : Nat) :
    lexCode (List.replicate n ' ' ++ (s ++ [' ', '?', ' '])) =
      some (ts.map .of ++ [.question]) := by
  have hspace : lex (s ++ [' ']) = some ts := by
    have happend := lexFrom_append h (t := []) rfl
    rwa [List.append_nil] at happend
  have hsplit : List.replicate n ' ' ++ (s ++ [' ', '?', ' ']) =
      (List.replicate n ' ' ++ (s ++ [' '])) ++ '?' :: [' '] := by
    simp
  have hbefore : lex (List.replicate n ' ' ++ (s ++ [' '])) = some ts := by
    rw [lex_replicate, hspace]
  rw [hsplit, lexCode_mark hbefore rfl]
  rfl

/-- An alternative behind a margin. -/
theorem lexCode_colon {s : Text} {xs : List Lexeme} (h : lexCode s = some xs) (n : Nat) :
    lexCode (List.replicate n ' ' ++ ':' :: s) = some (.colon :: xs) := by
  have hmargin : lex (List.replicate n ' ') = some [] := by
    rw [← List.append_nil (List.replicate n ' '), lex_replicate]
    rfl
  rw [lexCode_mark hmargin rfl, h]
  rfl

/-- What stands before the first of some branches: a colon if another branch is before them. -/
def lead (tested : Bool) : List Lexeme := if tested then [.colon] else []

theorem trimStart_closing (size : Int) (level : Nat) :
    Text.trimStart (indentation size level ++ [')']) = [')'] :=
  trimStart_indentation size level (by decide) []

theorem getLast?_null (margin : Text) :
    (margin ++ [':', ' ', 'n', 'u', 'l', 'l']).getLast? ≠ some '(' := by
  simp

/-- What is written of branches is read as their expression, with their bodies in their order. -/
theorem lexLines_choiceLines (h : Chained (bs.map Branch.guard?)) (hne : bs ≠ [])
    (hfirst : tested = true ∨ ∀ b ∈ bs.head?, b.guard? ≠ none) (size : Int) (level k : Nat) :
    lexLines none k (bs.map (bodyLines size (level + 2))) (choiceLines size level tested bs) =
      some (lead tested ++ (chain k (bs.map Branch.guard?)).lexemes) := by
  induction bs generalizing tested k with
  | nil => exact (hne rfl).elim
  | cons b bs ih =>
    rw [List.map_cons] at h
    rw [List.map_cons, List.map_cons, choiceLines, chain]
    cases hguard : b.guard? with
    | none =>
      rw [hguard] at h
      obtain rfl := List.map_eq_nil_iff.mp h.eq_nil
      have htested : tested = true := hfirst.resolve_right fun hhead => hhead b rfl hguard
      have hcode : lexCode (indentation size (level + 1) ++ [':', ' ']) = some [.colon] :=
        lexCode_colon (s := [' ']) rfl _
      have hend : lexLines none (k + 1) [] [] = some [] := rfl
      have hread := lexLines_body (bodyLines size (level + 2) b) hcode
        (trimStart_closing size (level + 1)) hend
      rw [htested]
      simpa [choiceLines, lead, condition?, Conditional.lexemes] using hread
    | some s =>
      rw [hguard] at h
      obtain ⟨e, ts, he, hts, htokens⟩ := h.exists_condition
      have hcode : lexCode (indentation size (level + 1) ++ ((if tested then [':', ' '] else []) ++
          (s ++ [' ', '?', ' ']))) = some (lead tested ++ (ts.map .of ++ [.question])) := by
        cases tested with
        | false => exact lexCode_test hts _
        | true => exact lexCode_colon (lexCode_test hts 1) _
      have hrest : lexLines none (k + 1) (bs.map (bodyLines size (level + 2)))
          (if bs.isEmpty then [indentation size (level + 1) ++ [':', ' ', 'n', 'u', 'l', 'l']]
            else choiceLines size level true bs) =
          some (.colon :: (chain (k + 1) (bs.map Branch.guard?)).lexemes) := by
        cases bs with
        | nil =>
          have hlast := getLast?_null (indentation size (level + 1))
          exact (lexLines_last hlast).trans (lexCode_colon (s := [' ', 'n', 'u', 'l', 'l']) rfl _)
        | cons b' bs =>
          exact ih h.tail (List.cons_ne_nil b' bs) (Or.inl rfl) (k + 1)
      have hlines := lexLines_body (bodyLines size (level + 2) b) hcode
        (trimStart_closing size (level + 1)) hrest
      rw [he]
      simp only [Conditional.lexemes, htokens]
      simpa using hlines

theorem onlyGuard?_eq_none (h : 2 ≤ bs.length) : onlyGuard? bs = none := by
  match bs, h with
  | _ :: _ :: _, _ => rfl

/-- The lines of branches that are not one branch with a test. -/
theorem markupLines_choices (hne : bs ≠ []) (h : onlyGuard? bs = none) (size : Int)
    (level : Nat) : markupLines size level (.conditional bs) =
      (indentation size level ++ ['{']) ::
        (choiceLines size level false bs ++ [indentation size level ++ ['}']]) := by
  rw [markupLines, h]
  · rfl
  · exact hne

/-- What is written of several branches is read as one expression, and as no other. -/
theorem lexBraced_conditional (h : Chained (bs.map Branch.guard?)) (htwo : 2 ≤ bs.length)
    (hfirst : ∀ b ∈ bs.head?, b.guard? ≠ none) (size : Int) (level : Nat) (c : Conditional) :
    lexBraced (bs.map (bodyLines size (level + 2))) (markupLines size level (.conditional bs)) =
      some c.lexemes ↔ c = chain 0 (bs.map Branch.guard?) := by
  have hne : bs ≠ [] := by
    rintro rfl
    cases htwo
  have hread : lexBraced (bs.map (bodyLines size (level + 2)))
      (markupLines size level (.conditional bs)) =
      some (chain 0 (bs.map Branch.guard?)).lexemes := by
    have hopen : Text.trimStart (indentation size level ++ ['{']) = ['{'] :=
      trimStart_indentation size level (by decide) []
    have hclose : Text.trimStart (indentation size level ++ ['}']) = ['}'] :=
      trimStart_indentation size level (by decide) []
    rw [markupLines_choices hne (onlyGuard?_eq_none htwo), lexBraced, List.headD_cons,
      ← List.cons_append, List.getLast?_concat, Option.map_some, hopen, hclose,
      if_pos ⟨rfl, rfl⟩, List.cons_append, List.tail_cons, List.dropLast_concat,
      lexLines_choiceLines h hne (Or.inr hfirst)]
    rfl
  rw [hread]
  constructor
  · intro heq
    exact (Conditional.lexemes_injective (Option.some.inj heq)).symm
  · rintro rfl
    rfl

end Offside.Ir
