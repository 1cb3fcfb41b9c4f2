import Offside.Text.Basic

/-! Conditions of a script: names joined by `!`, `&&`, `||` and parentheses. A negation binds
tightest, then comes `&&`, then `||`, and both group to the left. The three kinds of expressions
below leave room for no other grouping, and the reader finds the one expression that some tokens
stand for. -/
namespace Offside.Script

/-- The pieces of a condition. A `body` is a piece of markup in parentheses, whatever it holds. -/
inductive Token
  | name (x : Text)
  | not
  | and
  | or
  | opening
  | closing
  | body
deriving DecidableEq, Repr

mutual

/-- What stands on either side of an operator. -/
inductive Operand
  | name (x : Text)
  | not (o : Operand)
  | group (e : Choice)
  | body

/-- Operands with `&&` between them. -/
inductive Conjunction
  | single (o : Operand)
  | and (c : Conjunction) (o : Operand)

/-- Conjunctions with `||` between them. -/
inductive Choice
  | single (c : Conjunction)
  | or (e : Choice) (c : Conjunction)

end

mutual

def Operand.tokens : Operand → List Token
  | .name x => [.name x]
  | .not o => .not :: o.tokens
  | .group e => .opening :: e.tokens ++ [.closing]
  | .body => [.body]

def Conjunction.tokens : Conjunction → List Token
  | .single o => o.tokens
  | .and c o => c.tokens ++ .and :: o.tokens

def Choice.tokens : Choice → List Token
  | .single c => c.tokens
  | .or e c => e.tokens ++ .or :: c.tokens

end

/-! ## Reading -/

/-- What has been read of a choice up to an operand: the conjunctions before the last `||`, the
operands before the last `&&` behind it, and the number of negations. -/
structure Level where
  earlier : Option Choice
  before : Option Conjunction
  negations : Nat

/-- A choice of which nothing has been read. -/
def Level.start : Level := ⟨none, none, 0⟩

/-- An operand with negations in front of it. -/
def negated : Nat → Operand → Operand
  | 0, o => o
  | n + 1, o => negated n (.not o)

/-- A conjunction with one more operand. -/
def joined : Option Conjunction → Operand → Conjunction
  | none, o => .single o
  | some c, o => .and c o

/-- A choice with one more conjunction. -/
def extended : Option Choice → Conjunction → Choice
  | none, c => .single c
  | some e, c => .or e c

/-- Between two tokens, an operand is wanted or was just read. The choices around the one at hand
are open, the innermost first. -/
inductive Progress
  | wanting (l : Level) (outer : List Level)
  | having (earlier : Option Choice) (c : Conjunction) (outer : List Level)

namespace Progress

def take (l : Level) (o : Operand) (outer : List Level) : Progress :=
  .having l.earlier (joined l.before (negated l.negations o)) outer

def step : Progress → Token → Option Progress
  | .wanting l outer, .name x => some (take l (.name x) outer)
  | .wanting l outer, .body => some (take l .body outer)
  | .wanting l outer, .not => some (.wanting { l with negations := l.negations + 1 } outer)
  | .wanting l outer, .opening => some (.wanting .start (l :: outer))
  | .having e c outer, .and => some (.wanting ⟨e, some c, 0⟩ outer)
  | .having e c outer, .or => some (.wanting ⟨some (extended e c), none, 0⟩ outer)
  | .having e c (l :: outer), .closing => some (take l (.group (extended e c)) outer)
  | _, _ => none

/-- What was read, if all that was opened is closed. -/
def finish? : Progress → Option Choice
  | .having e c [] => some (extended e c)
  | _ => none

end Progress

def read (ts : List Token) : Option Choice :=
  (ts.foldlM Progress.step (.wanting .start [])).bind Progress.finish?

/-! ## What is read has just these tokens -/

variable {p q : Progress} {l : Level} {o : Operand} {c : Conjunction} {e : Choice} {t : Token}
  {ts rest : List Token} {outer : List Level}

theorem tokens_negated (n : Nat) (o : Operand) :
    (negated n o).tokens = List.replicate n .not ++ o.tokens := by
  induction n generalizing o with
  | zero => rfl
  | succ n ih =>
    rw [negated, ih, Operand.tokens, List.replicate_succ', List.append_assoc]
    rfl

/-- The tokens of what stands before the operand at hand. -/
def Level.tokens (l : Level) : List Token :=
  (l.earlier.elim [] fun e => e.tokens ++ [.or]) ++
    (l.before.elim [] fun c => c.tokens ++ [.and]) ++ List.replicate l.negations .not

/-- The tokens before an inner choice. -/
def outerTokens : List Level → List Token
  | [] => []
  | l :: outer => outerTokens outer ++ l.tokens ++ [.opening]

theorem tokens_joined (b : Option Conjunction) (o : Operand) :
    (joined b o).tokens = (b.elim [] fun c => c.tokens ++ [.and]) ++ o.tokens := by
  cases b with
  | none => rfl
  | some c => simp [joined, Conjunction.tokens]

theorem tokens_extended (b : Option Choice) (c : Conjunction) :
    (extended b c).tokens = (b.elim [] fun e => e.tokens ++ [.or]) ++ c.tokens := by
  cases b with
  | none => rfl
  | some e => simp [extended, Choice.tokens]

/-- The tokens that were read. -/
def Progress.tokens : Progress → List Token
  | .wanting l outer => outerTokens outer ++ l.tokens
  | .having e c outer => outerTokens outer ++ (extended e c).tokens

theorem Progress.tokens_take (l : Level) (o : Operand) (outer : List Level) :
    (take l o outer).tokens = outerTokens outer ++ l.tokens ++ o.tokens := by
  simp [take, tokens, tokens_extended, tokens_joined, tokens_negated, Level.tokens]

/-- A step that succeeds takes its token. -/
theorem Progress.tokens_step (h : p.step t = some q) : q.tokens = p.tokens ++ [t] := by
  cases p with
  | wanting l outer =>
    cases t with
    | name | body =>
      cases h
      rw [tokens_take]
      rfl
    | not =>
      cases h
      simp [tokens, Level.tokens, List.replicate_succ']
    | opening =>
      cases h
      simp [tokens, Level.tokens, Level.start, outerTokens]
    | and | or | closing => cases h
  | having e c outer =>
    cases t with
    | and =>
      cases h
      simp [tokens, Level.tokens, tokens_extended]
    | or =>
      cases h
      simp [tokens, Level.tokens]
    | closing =>
      cases outer with
      | nil => cases h
      | cons l outer =>
        cases h
        rw [tokens_take]
        simp [tokens, Operand.tokens, outerTokens]
    | name | not | opening | body => cases h

theorem Progress.tokens_run (h : ts.foldlM step p = some q) : q.tokens = p.tokens ++ ts := by
  induction ts generalizing p with
  | nil =>
    cases h
    exact (List.append_nil _).symm
  | cons t ts ih =>
    obtain ⟨p', hp', h⟩ := Option.bind_eq_some_iff.mp h
    rw [ih h, tokens_step hp', List.append_assoc]
    rfl

theorem tokens_of_read (h : read ts = some e) : e.tokens = ts := by
  obtain ⟨p, hrun, hfinish⟩ := Option.bind_eq_some_iff.mp h
  have htokens := Progress.tokens_run hrun
  cases p with
  | wanting => cases hfinish
  | having earlier c outer =>
    cases outer with
    | cons => cases hfinish
    | nil =>
      cases hfinish
      exact htokens

/-! ## All conditions are read -/

def Choice.earlier? : Choice → Option Choice
  | .single _ => none
  | .or e _ => some e

def Choice.last : Choice → Conjunction
  | .single c => c
  | .or _ c => c

theorem extended_last (e : Choice) : extended e.earlier? e.last = e := by
  cases e <;> rfl

mutual

/-- An operand is taken as a whole where one is wanted. -/
theorem run_operand : ∀ (o : Operand) (l : Level) (outer : List Level) (rest : List Token),
    (o.tokens ++ rest).foldlM Progress.step (.wanting l outer) =
      rest.foldlM Progress.step (.take l o outer)
  | .name _, _, _, _ => rfl
  | .body, _, _, _ => rfl
  | .not o, l, outer, rest => run_operand o { l with negations := l.negations + 1 } outer rest
  | .group e, l, outer, rest => by
    have hinner := run_choice e (l :: outer) (.closing :: rest)
    have hopen : ((Operand.group e).tokens ++ rest).foldlM Progress.step (.wanting l outer) =
        (e.tokens ++ .closing :: rest).foldlM Progress.step (.wanting .start (l :: outer)) := by
      rw [Operand.tokens, List.cons_append, List.cons_append, List.append_assoc]
      rfl
    have hclose : (Token.closing :: rest).foldlM Progress.step
        (.having e.earlier? e.last (l :: outer)) =
        rest.foldlM Progress.step (.take l (.group (extended e.earlier? e.last)) outer) := rfl
    rw [hopen, hinner, hclose, extended_last]

theorem run_conjunction : ∀ (c : Conjunction) (e : Option Choice) (outer : List Level)
    (rest : List Token),
    (c.tokens ++ rest).foldlM Progress.step (.wanting ⟨e, none, 0⟩ outer) =
      rest.foldlM Progress.step (.having e c outer)
  | .single o, e, outer, rest => run_operand o ⟨e, none, 0⟩ outer rest
  | .and c o, e, outer, rest => by
    rw [Conjunction.tokens, List.append_assoc, run_conjunction c]
    exact run_operand o ⟨e, some c, 0⟩ outer rest

theorem run_choice : ∀ (e : Choice) (outer : List Level) (rest : List Token),
    (e.tokens ++ rest).foldlM Progress.step (.wanting .start outer) =
      rest.foldlM Progress.step (.having e.earlier? e.last outer)
  | .single c, outer, rest => run_conjunction c none outer rest
  | .or e c, outer, rest => by
    rw [Choice.tokens, List.append_assoc, run_choice e]
    have hor : (Token.or :: c.tokens ++ rest).foldlM Progress.step
        (.having e.earlier? e.last outer) =
        (c.tokens ++ rest).foldlM Progress.step
          (.wanting ⟨some (extended e.earlier? e.last), none, 0⟩ outer) := rfl
    rw [hor, extended_last, run_conjunction c]
    rfl

end

/-- The reader finds the condition whose tokens they are, and there is no other. -/
theorem read_eq_some_iff : read ts = some e ↔ e.tokens = ts := by
  refine ⟨tokens_of_read, ?_⟩
  rintro rfl
  have hrun := run_choice e [] []
  rw [List.append_nil] at hrun
  rw [read, hrun]
  exact congrArg some (extended_last e)

end Offside.Script
