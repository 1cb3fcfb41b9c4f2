import Offside.Markup.Cursor
import Offside.Proofs.Script.Grammar

/-! The tokens of a condition in its text. -/
namespace Offside.Script

open Markup

/-- What a token has begun with: the characters of a name, or the first of two equal signs. -/
inductive Pending
  | word (w : Text)
  | half (c : Char)

/-- Puts a name that has ended in front of tokens. No name starts with a digit. -/
def endWord : Text → List Token → Option (List Token)
  | [], ts => some ts
  | c :: w, ts => if c.isDigit then none else some (.name (c :: w) :: ts)

/-- The tokens of a character that is one by itself or separates tokens. -/
def sign? (c : Char) : Option (List Token) :=
  if c == '!' then some [.not]
  else if c == '(' then some [.opening]
  else if c == ')' then some [.closing]
  else if isGap c then some []
  else none

/-- The tokens of a text behind the start of a token. -/
def lexFrom : Pending → Text → Option (List Token)
  | .word w, [] => endWord w []
  | .half _, [] => none
  | .half c, d :: s =>
    if d == c then (lexFrom (.word []) s).map ((if c == '&' then .and else .or) :: ·) else none
  | .word w, c :: s =>
    if isNamePart c then lexFrom (.word (w ++ [c])) s
    else if c == '&' || c == '|' then (lexFrom (.half c) s).bind (endWord w)
    else (sign? c).bind fun signs => (lexFrom (.word []) s).bind fun ts => endWord w (signs ++ ts)

def lex (s : Text) : Option (List Token) := lexFrom (.word []) s

variable {w s t : Text} {p : Pending} {ts us vs : List Token} {c : Char}

theorem endWord_append (h : endWord w ts = some us) : endWord w (ts ++ vs) = some (us ++ vs) := by
  cases w with
  | nil =>
    cases h
    rfl
  | cons c w =>
    rw [endWord] at h ⊢
    split at h
    · cases h
    · next hdigit =>
      cases h
      rw [if_neg hdigit]
      rfl

/-- A space ends a token. -/
theorem lexFrom_append (h : lexFrom p s = some ts) (ht : lex t = some us) :
    lexFrom p (s ++ ' ' :: t) = some (ts ++ us) := by
  induction s generalizing p ts with
  | nil =>
    cases p with
    | half => cases h
    | word w =>
      have hspace : lexFrom (.word w) (' ' :: t) = (lex t).bind (endWord w) := rfl
      have hend : endWord w [] = some ts := h
      rw [List.nil_append, hspace, ht]
      exact endWord_append hend
  | cons c s ih =>
    cases p with
    | half d =>
      rw [lexFrom] at h
      rw [List.cons_append, lexFrom]
      split at h
      · next heq =>
        obtain ⟨vs, hvs, rfl⟩ := Option.map_eq_some_iff.mp h
        rw [if_pos heq, ih hvs]
        rfl
      · cases h
    | word w =>
      rw [lexFrom] at h
      rw [List.cons_append, lexFrom]
      split at h
      · next hname => rw [if_pos hname, ih h]
      · next hname =>
        rw [if_neg hname]
        split at h
        · next hhalf =>
          obtain ⟨vs, hvs, h⟩ := Option.bind_eq_some_iff.mp h
          rw [if_pos hhalf, ih hvs]
          exact endWord_append h
        · next hhalf =>
          obtain ⟨signs, hsigns, h⟩ := Option.bind_eq_some_iff.mp h
          obtain ⟨vs, hvs, h⟩ := Option.bind_eq_some_iff.mp h
          rw [if_neg hhalf, hsigns, Option.bind_some, ih hvs, Option.bind_some, ← List.append_assoc]
          exact endWord_append h

/-! ## No text has markup as a token -/

theorem body_not_mem_endWord (h : endWord w ts = some us) (hts : .body ∉ ts) : .body ∉ us := by
  cases w with
  | nil =>
    cases h
    exact hts
  | cons c w =>
    rw [endWord] at h
    split at h
    · cases h
    · cases h
      simpa using hts

/-- No sign is a body. -/
theorem body_not_mem_sign (h : sign? c = some ts) : .body ∉ ts := by
  rw [sign?] at h
  split at h
  · cases h
    simp
  · split at h
    · cases h
      simp
    · split at h
      · cases h
        simp
      · split at h
        · cases h
          simp
        · cases h

/-- No text is read as a body. -/
theorem body_not_mem_lexFrom (h : lexFrom p s = some ts) : .body ∉ ts := by
  induction s generalizing p ts with
  | nil =>
    cases p with
    | half => cases h
    | word w => exact body_not_mem_endWord h (List.not_mem_nil)
  | cons c s ih =>
    cases p with
    | half d =>
      rw [lexFrom] at h
      split at h
      · obtain ⟨vs, hvs, rfl⟩ := Option.map_eq_some_iff.mp h
        have hrest := ih hvs
        split <;> simpa using hrest
      · cases h
    | word w =>
      rw [lexFrom] at h
      split at h
      · exact ih h
      · split at h
        · obtain ⟨vs, hvs, h⟩ := Option.bind_eq_some_iff.mp h
          exact body_not_mem_endWord h (ih hvs)
        · obtain ⟨signs, hsigns, h⟩ := Option.bind_eq_some_iff.mp h
          obtain ⟨vs, hvs, h⟩ := Option.bind_eq_some_iff.mp h
          refine body_not_mem_endWord h ?_
          rw [List.mem_append]
          rintro (hmem | hmem)
          · exact body_not_mem_sign hsigns hmem
          · exact ih hvs hmem

end Offside.Script
