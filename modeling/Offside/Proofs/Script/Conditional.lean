import Mathlib.Logic.Function.Basic
import Offside.Proofs.Script.Value

/-! Choices between pieces of markup. A `?` and a `:` bind weaker than every operator, and they
group to the right: the test before a `?` has no choice in it, and what stands behind a `:` goes on
to the end. Some pieces of code are the pieces of one such expression at most. -/
namespace Offside.Script

/-- The pieces of an expression. A piece of markup in parentheses is known by its number. -/
inductive Lexeme
  | of (t : Token)
  | question
  | colon
  | body (k : Nat)
deriving DecidableEq, Repr

/-- A condition, a piece of markup, or one of two such by a test. -/
inductive Conditional
  | plain (e : Choice)
  | body (k : Nat)
  | cond (test : Choice) (yes no : Conditional)

def Conditional.lexemes : Conditional → List Lexeme
  | .plain e => e.tokens.map .of
  | .body k => [.body k]
  | .cond test yes no =>
    test.tokens.map .of ++ .question :: (yes.lexemes ++ .colon :: no.lexemes)

/-- The numbers of the pieces of markup in an expression. -/
def Conditional.bodies : Conditional → List Nat
  | .plain _ => []
  | .body k => [k]
  | .cond _ yes no => yes.bodies ++ no.bodies

/-! ## No pieces belong to two expressions -/

variable {e e' : Choice} {c c' : Conditional} {ts us : List Token} {xs ys : List Lexeme}

theorem Choice.tokens_injective : Function.Injective Choice.tokens := fun e e' h => by
  have hread : read e'.tokens = some e := read_eq_some_iff.mpr h
  rw [read_eq_some_iff.mpr rfl] at hread
  exact (Option.some.inj hread).symm

theorem Choice.tokens_ne_nil (e : Choice) : e.tokens ≠ [] := fun h => by
  cases read_eq_some_iff.mpr h

/-- No token comes next. -/
def Tokenless (xs : List Lexeme) : Prop := ∀ t, xs.head? ≠ some (.of t)

theorem tokenless_cons {x : Lexeme} (h : ∀ t, x ≠ .of t) : Tokenless (x :: xs) := by
  simpa [Tokenless] using h

/-- The tokens at the front reach up to the first piece that is none. -/
theorem map_of_append_inj (hxs : Tokenless xs) (hys : Tokenless ys)
    (h : ts.map .of ++ xs = us.map .of ++ ys) : ts = us ∧ xs = ys := by
  induction ts generalizing us with
  | nil =>
    cases us with
    | nil => exact ⟨rfl, h⟩
    | cons u us => exact (hxs u (by simpa using congrArg List.head? h)).elim
  | cons t ts ih =>
    cases us with
    | nil => exact (hys t (by simpa using (congrArg List.head? h).symm)).elim
    | cons u us =>
      obtain ⟨htu, htail⟩ := List.cons.inj h
      obtain ⟨rfl, hrest⟩ := ih htail
      exact ⟨by rw [Lexeme.of.inj htu], hrest⟩

/-- An expression does not go on here. -/
def Stops (xs : List Lexeme) : Prop := ∀ x ∈ xs.head?, x = .colon

theorem stops_nil : Stops [] := by simp [Stops]

theorem stops_colon (xs : List Lexeme) : Stops (.colon :: xs) := by simp [Stops]

theorem Stops.tokenless (h : Stops xs) : Tokenless xs := fun t ht => by
  cases h (.of t) ht

theorem Stops.ne_question (h : Stops xs) : xs ≠ .question :: ys := by
  rintro rfl
  cases h .question rfl

namespace Conditional

/-- The tokens at the front of an expression. -/
def front : Conditional → List Token
  | plain e => e.tokens
  | body _ => []
  | cond test _ _ => test.tokens

/-- What stands behind the tokens at the front of an expression that is followed by more. -/
def behind (xs : List Lexeme) : Conditional → List Lexeme
  | plain _ => xs
  | body k => .body k :: xs
  | cond _ yes no => .question :: (yes.lexemes ++ .colon :: (no.lexemes ++ xs))

theorem lexemes_append (c : Conditional) (xs : List Lexeme) :
    c.lexemes ++ xs = c.front.map .of ++ c.behind xs := by
  cases c <;> simp [lexemes, front, behind]

theorem tokenless_behind (h : Stops xs) (c : Conditional) : Tokenless (c.behind xs) := by
  cases c with
  | plain e => exact h.tokenless
  | body k => exact tokenless_cons (by simp)
  | cond test yes no => exact tokenless_cons (by simp)

theorem front_behind (hxs : Stops xs) (hys : Stops ys) (h : c.lexemes ++ xs = c'.lexemes ++ ys) :
    c.front = c'.front ∧ c.behind xs = c'.behind ys := by
  rw [lexemes_append, lexemes_append] at h
  exact map_of_append_inj (tokenless_behind hxs c) (tokenless_behind hys c') h

/-- An expression ends where no expression goes on. -/
theorem lexemes_append_inj (hxs : Stops xs) (hys : Stops ys)
    (h : c.lexemes ++ xs = c'.lexemes ++ ys) : c = c' ∧ xs = ys := by
  induction c generalizing c' xs ys with
  | plain e =>
    obtain ⟨hfront, hbehind⟩ := front_behind hxs hys h
    cases c' with
    | plain e' => exact ⟨by rw [Choice.tokens_injective hfront], hbehind⟩
    | body k => exact (e.tokens_ne_nil hfront).elim
    | cond test yes no => exact (hxs.ne_question hbehind).elim
  | body k =>
    obtain ⟨hfront, hbehind⟩ := front_behind hxs hys h
    cases c' with
    | plain e => exact (e.tokens_ne_nil hfront.symm).elim
    | body k' =>
      obtain ⟨hk, hrest⟩ := List.cons.inj hbehind
      exact ⟨by rw [Lexeme.body.inj hk], hrest⟩
    | cond test yes no => exact (test.tokens_ne_nil hfront.symm).elim
  | cond test yes no ihyes ihno =>
    obtain ⟨hfront, hbehind⟩ := front_behind hxs hys h
    cases c' with
    | plain e => exact (hys.ne_question hbehind.symm).elim
    | body k => exact (test.tokens_ne_nil hfront).elim
    | cond test' yes' no' =>
      obtain ⟨-, hyes⟩ := List.cons.inj hbehind
      obtain ⟨rfl, hcolon⟩ := ihyes (stops_colon _) (stops_colon _) hyes
      obtain ⟨rfl, hrest⟩ := ihno hxs hys (List.cons.inj hcolon).2
      exact ⟨by rw [Choice.tokens_injective hfront], hrest⟩

/-- Some pieces are those of one expression at most. -/
theorem lexemes_injective : Function.Injective lexemes := fun c c' h =>
  (lexemes_append_inj stops_nil stops_nil (by rw [h])).1

end Conditional

/-! ## What an expression comes to -/

/-- Nothing, a truth value, or a piece of markup. -/
inductive Outcome
  | nothing
  | truth (b : Bool)
  | body (k : Nat)
deriving DecidableEq, Repr

/-- The name of nothing. -/
def Choice.null : Choice := .single (.single (.name ['n', 'u', 'l', 'l']))

def Conditional.value (ρ : Facts) : Conditional → Outcome
  | .plain e => if e.tokens = Choice.null.tokens then .nothing else .truth ((e.value ρ).counts ρ)
  | .body k => .body k
  | .cond test yes no => if (test.value ρ).counts ρ then yes.value ρ else no.value ρ

end Offside.Script
