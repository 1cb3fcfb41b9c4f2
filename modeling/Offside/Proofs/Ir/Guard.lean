import Offside.Export
import Offside.Proofs.Script.Lexer
import Offside.Proofs.Script.Value

/-! A branch that is joined to its test with `&&`. The test is written as it is. So the `&&` goes to
what stands behind the last `||` of the test, and the branch is shown by that part of the test
alone. -/
namespace Offside.Ir

open Script

variable {size : Int} {level : Nat} {test : Text} {children : List Node} {e : Choice}

/-- The condition that is written between braces, if it ends with a piece of markup in parentheses
that has the lines between the first and the last to itself. -/
def readContainer (ls : List Text) : Option Choice :=
  match Text.trimStart (ls.headD []), ls.getLast?.map Text.trimStart with
  | '{' :: code, some [')', '}'] =>
    if code.getLast? = some '(' then
      (lex code.dropLast).bind fun ts => Script.read (ts ++ [.body])
    else none
  | _, _ => none

theorem trimStart_indentation (size : Int) (level : Nat) {c : Char} (h : Text.isBlank c = false)
    (s : Text) : Text.trimStart (indentation size level ++ c :: s) = c :: s := by
  rw [indentation, Text.trimStart]
  generalize size.toNat * level = n
  induction n with
  | zero => simp [h]
  | succ n ih =>
    have hspace : Text.isBlank ' ' = true := by decide
    rw [List.replicate_succ, List.cons_append, List.dropWhile_cons_of_pos hspace, ih]

/-- The lines of a branch that is joined to its test. -/
theorem markupLines_guarded (h : test ≠ []) (size : Int) (level : Nat) (children : List Node) :
    markupLines size level (.conditional [⟨some test, children⟩]) =
      (indentation size level ++ '{' :: (test ++ [' ', '&', '&', ' ', '('])) ::
        (bodyLines size (level + 1) ⟨some test, children⟩ ++
          [indentation size level ++ [')', '}']]) := by
  have hguard : onlyGuard? [(⟨some test, children⟩ : Branch Node)] = some test := by
    cases test with
    | nil => exact (h rfl).elim
    | cons c s => rfl
  rw [markupLines, hguard, firstBodyLines]
  · simp only [List.append_assoc, List.cons_append]
  · exact List.cons_ne_nil _ _

/-- What is written of such a branch is read as its test with `&&` and the branch behind it. -/
theorem readContainer_guarded (h : (lex test).bind Script.read = some e) (size : Int) (level : Nat)
    (children : List Node) :
    readContainer (markupLines size level (.conditional [⟨some test, children⟩])) =
      some e.guarded := by
  obtain ⟨ts, hts, hread⟩ := Option.bind_eq_some_iff.mp h
  have hne : test ≠ [] := by
    rintro rfl
    cases hts
    cases hread
  have hlex : lex (test ++ [' ', '&', '&', ' ']) = some (ts ++ [.and]) :=
    lexFrom_append hts (t := ['&', '&', ' ']) rfl
  have hcode : (test ++ [' ', '&', '&', ' ', '(']).getLast? = some '(' ∧
      (test ++ [' ', '&', '&', ' ', '(']).dropLast = test ++ [' ', '&', '&', ' '] := by
    have hsplit : test ++ [' ', '&', '&', ' ', '('] = (test ++ [' ', '&', '&', ' ']) ++ ['('] := by
      simp
    rw [hsplit]
    exact ⟨List.getLast?_concat .., List.dropLast_concat ..⟩
  have hlast : ∀ first last : Text, ∀ body : List Text,
      (first :: (body ++ [last])).getLast? = some last := by
    intro first last body
    rw [← List.cons_append, List.getLast?_concat]
  rw [markupLines_guarded hne, readContainer, List.headD_cons, hlast, Option.map_some,
    trimStart_indentation size level (by decide), trimStart_indentation size level (by decide)]
  simp only [hcode, if_true, hlex, Option.bind_some]
  rw [read_eq_some_iff, Choice.tokens_guarded, tokens_of_read hread, List.append_assoc]
  rfl

/-- A branch that is joined to its test with `&&` is written so that it can be read, and it is shown
just if the test is true, unless something before the last `||` of the test is true. Then the test
is true and the branch is not shown. -/
theorem shown_iff_test (size : Int) (level : Nat) (test : Text) (children : List Node) (e : Choice)
    (h : (lex test).bind Script.read = some e) (ρ : Facts) :
    ∃ e', readContainer (markupLines size level (.conditional [⟨some test, children⟩])) = some e' ∧
      ((e'.value ρ = .body ↔ (e.value ρ).counts ρ = true) ↔
        ∀ d ∈ e.earlier?, (d.value ρ).counts ρ = false) := by
  obtain ⟨ts, hts, hread⟩ := Option.bind_eq_some_iff.mp h
  refine ⟨e.guarded, readContainer_guarded h size level children, ?_⟩
  apply Choice.value_guarded_iff
  rw [tokens_of_read hread]
  exact body_not_mem_lexFrom hts

/-- A test in which the only `||` is in parentheses. -/
def groupedTest : Text := ['!', '(', 'a', ' ', '|', '|', ' ', 'b', ')', ' ', '&', '&', ' ', 'c']

theorem shown_iff_groupedTest :
    ∃ e e', (lex groupedTest).bind Script.read = some e ∧
      readContainer (markupLines 2 0 (.conditional [⟨some groupedTest, [.text ['x']]⟩])) =
        some e' ∧
      ((e'.value ⟨(· == ['c']), true⟩ = .body ↔
          (e.value ⟨(· == ['c']), true⟩).counts ⟨(· == ['c']), true⟩ = true) ↔
        ∀ d ∈ e.earlier?, (d.value ⟨(· == ['c']), true⟩).counts ⟨(· == ['c']), true⟩ = false) := by
  have h : (lex groupedTest).bind Script.read = some (.single (.and (.single (.not (.group
      (.or (.single (.single (.name ['a']))) (.single (.name ['b'])))))) (.name ['c']))) := rfl
  obtain ⟨e', he', hshown⟩ :=
    shown_iff_test 2 0 groupedTest [.text ['x']] _ h ⟨(· == ['c']), true⟩
  exact ⟨_, e', h, he', hshown⟩

/-- The name that is true, and the markup. -/
def onlyA : Facts := ⟨(· == ['a']), true⟩

/-- A branch whose test is true and which is not shown. Of `a || b && (…)`, with only `a` true, the
value is that of `a`. -/
theorem exists_true_not_shown :
    (exportTemplate "@if (a || b)\n  p\n".toList none {}).output =
        "\x7ba || b && (\n  <p />\n)\x7d\n".toList ∧
      ∃ e e', (lex "a || b".toList).bind Script.read = some e ∧
        readContainer (markupLines 2 0
          (.conditional [⟨some "a || b".toList, [.ofParts ['p'] [] [] []]⟩])) = some e' ∧
        (e.value onlyA).counts onlyA = true ∧ e'.value onlyA = .truth true := by
  refine ⟨by decide +kernel, ?_⟩
  have h : (lex "a || b".toList).bind Script.read = some (.or (.single (.single (.name ['a'])))
      (.single (.name ['b']))) := rfl
  exact ⟨_, _, h, readContainer_guarded h 2 0 _, rfl, rfl⟩

end Offside.Ir
