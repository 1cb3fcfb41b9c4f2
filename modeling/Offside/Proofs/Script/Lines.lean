import Offside.Proofs.Script.Conditional
import Offside.Proofs.Script.Lexer

/-! The pieces of an expression in the lines of its code. Pieces of markup stand between the lines
of code, each in parentheses. They are taken as they come: how markup is read plays no part here. -/
namespace Offside.Script

open Text

/-- The piece that a character is by itself, if no token can hold it. -/
def mark? (c : Char) : Option Lexeme :=
  if c == '?' then some .question else if c == ':' then some .colon else none

/-- The pieces of code behind `w`, which has no mark in it. -/
def lexMarks (w : Text) : Text → Option (List Lexeme)
  | [] => (lex w).map (·.map .of)
  | c :: s =>
    match mark? c with
    | some m => (lex w).bind fun ts => (lexMarks [] s).map fun xs => ts.map .of ++ m :: xs
    | none => lexMarks (w ++ [c]) s

def lexCode (s : Text) : Option (List Lexeme) := lexMarks [] s

/-- The pieces of lines of code with pieces of markup between them. `inside` is what is left of the
markup that has been opened, `k` the number of the next one, and `bodies` the lines of those to
come. Each of them has to come, and in this order. -/
def lexLines (inside : Option (List Text)) (k : Nat) (bodies : List (List Text)) :
    List Text → Option (List Lexeme)
  | [] => if inside.isNone && bodies.isEmpty then some [] else none
  | l :: ls =>
    match inside with
    | some (l' :: body) => if l = l' then lexLines (some body) k bodies ls else none
    | some [] => if trimStart l = [')'] then lexLines none k bodies ls else none
    | none =>
      if l.getLast? = some '(' then
        match bodies with
        | [] => none
        | body :: bodies => (lexCode l.dropLast).bind fun xs =>
          (lexLines (some body) (k + 1) bodies ls).map fun ys => xs ++ .body k :: ys
      else (lexCode l).bind fun xs => (lexLines none k bodies ls).map (xs ++ ·)

def lexBraced (bodies : List (List Text)) (ls : List Text) : Option (List Lexeme) :=
  if trimStart (ls.headD []) = ['{'] ∧ ls.getLast?.map trimStart = some ['}'] then
    lexLines none 0 bodies ls.tail.dropLast
  else none

variable {w s l : Text} {p : Pending} {ts : List Token} {xs ys : List Lexeme} {c : Char}
  {m : Lexeme} {k : Nat} {ls : List Text} {bodies : List (List Text)}

/-! ## Lines of code -/

theorem lexFrom_of_mark (hm : mark? c = some m) : lexFrom (.word w) (c :: s) = none := by
  have hc : c = '?' ∨ c = ':' := by
    rw [mark?] at hm
    split at hm
    · next h => exact Or.inl (by simpa using h)
    · split at hm
      · next h => exact Or.inr (by simpa using h)
      · cases hm
  rcases hc with rfl | rfl <;> rfl

/-- No token has a mark in it. -/
theorem mark?_eq_none (h : lexFrom p s = some ts) (hp : ∀ c, p = .half c → mark? c = none) :
    ∀ c ∈ s, mark? c = none := by
  induction s generalizing p ts with
  | nil => simp
  | cons c s ih =>
    cases p with
    | half d =>
      rw [lexFrom] at h
      split at h
      · next heq =>
        obtain ⟨vs, hvs, -⟩ := Option.map_eq_some_iff.mp h
        obtain rfl : c = d := by simpa using heq
        exact List.forall_mem_cons.mpr ⟨hp c rfl, ih hvs (by simp)⟩
      · cases h
    | word w =>
      have hc : mark? c = none := by
        rw [Option.eq_none_iff_forall_ne_some]
        intro m hm
        rw [lexFrom_of_mark hm] at h
        cases h
      refine List.forall_mem_cons.mpr ⟨hc, ?_⟩
      rw [lexFrom] at h
      split at h
      · exact ih h (by simp)
      · split at h
        · obtain ⟨vs, hvs, -⟩ := Option.bind_eq_some_iff.mp h
          exact ih hvs (by rintro d ⟨⟩; exact hc)
        · obtain ⟨signs, -, h⟩ := Option.bind_eq_some_iff.mp h
          obtain ⟨vs, hvs, -⟩ := Option.bind_eq_some_iff.mp h
          exact ih hvs (by simp)

theorem lexMarks_append (h : ∀ c ∈ s, mark? c = none) (w t : Text) :
    lexMarks w (s ++ t) = lexMarks (w ++ s) t := by
  induction s generalizing w with
  | nil => simp
  | cons c s ih =>
    obtain ⟨hc, hs⟩ := List.forall_mem_cons.mp h
    rw [List.cons_append, lexMarks, hc]
    simp [ih hs]

/-- Tokens up to a mark. -/
theorem lexCode_mark (hs : lex s = some ts) (hm : mark? c = some m) (t : Text) :
    lexCode (s ++ c :: t) = (lexCode t).map fun xs => ts.map .of ++ m :: xs := by
  rw [lexCode, lexMarks_append (mark?_eq_none hs (by simp)), List.nil_append, lexMarks, hm]
  simp only [hs, Option.bind_some, lexCode]

/-- A margin has no tokens. -/
theorem lex_replicate (n : Nat) (s : Text) : lex (List.replicate n ' ' ++ s) = lex s := by
  induction n with
  | zero => rfl
  | succ n ih =>
    have hspace : lex (' ' :: (List.replicate n ' ' ++ s)) =
        (lex (List.replicate n ' ' ++ s)).bind (endWord []) := rfl
    rw [List.replicate_succ, List.cons_append, hspace, ih]
    cases lex s <;> rfl

/-! ## Lines -/

/-- Markup is read up to the parenthesis that closes it. -/
theorem lexLines_inside (body : List Text) (k : Nat) (bodies : List (List Text))
    (hl : trimStart l = [')']) (ls : List Text) :
    lexLines (some body) k bodies (body ++ l :: ls) = lexLines none k bodies ls := by
  induction body with
  | nil => rw [List.nil_append, lexLines, if_pos hl]
  | cons l' body ih => rw [List.cons_append, lexLines, if_pos rfl, ih]

/-- Code in front of markup, the markup, and what stands behind it. -/
theorem lexLines_body (body : List Text) (hs : lexCode s = some xs) (hl : trimStart l = [')'])
    (hls : lexLines none (k + 1) bodies ls = some ys) :
    lexLines none k (body :: bodies) ((s ++ ['(']) :: (body ++ l :: ls)) =
      some (xs ++ .body k :: ys) := by
  have hopen : (s ++ ['(']).getLast? = some '(' := List.getLast?_concat ..
  rw [lexLines]
  simp only [hopen, if_true, List.dropLast_concat, hs, Option.bind_some,
    lexLines_inside body (k + 1) bodies hl, hls, Option.map_some]

/-- A last line of code. -/
theorem lexLines_last (hl : l.getLast? ≠ some '(') : lexLines none k [] [l] = lexCode l := by
  rw [lexLines]
  simp only [if_neg hl]
  cases lexCode l <;> simp [lexLines]

end Offside.Script
