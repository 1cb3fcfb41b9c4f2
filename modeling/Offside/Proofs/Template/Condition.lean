import Offside.Proofs.Diagnostic
import Offside.Proofs.Text.Lines
import Offside.Template.Condition

/-! The heads of branches. `Closes` says which texts a parenthesis can be closed behind; a test
keeps this property without the blanks around it, so it can be put between parentheses again. -/
namespace Offside

open Text

namespace Test

/-- Behind the text all open parentheses but one are closed, and no quote is open. -/
inductive Closes : Nat → Option Char → Text → Prop
  | done : Closes 0 none []
  | escaped {d : Nat} {q e : Char} {s : Text} : Closes d (some q) s →
      Closes d (some q) ('\\' :: e :: s)
  | unquote {d : Nat} {q : Char} {s : Text} : q ≠ '\\' → Closes d none s →
      Closes d (some q) (q :: s)
  | quoted {d : Nat} {q c : Char} {s : Text} : c ≠ '\\' → c ≠ q → Closes d (some q) s →
      Closes d (some q) (c :: s)
  | quote {d : Nat} {c : Char} {s : Text} : isQuote c = true → Closes d (some c) s →
      Closes d none (c :: s)
  | opened {d : Nat} {s : Text} : Closes (d + 1) none s → Closes d none ('(' :: s)
  | closed {d : Nat} {s : Text} : Closes d none s → Closes (d + 1) none (')' :: s)
  | plain {d : Nat} {c : Char} {s : Text} : isQuote c = false → c ≠ '(' → c ≠ ')' →
      Closes d none s → Closes d none (c :: s)

variable {d : Nat} {q : Option Char} {s a b u inside after : Text}

/-- A parenthesis that closes is found, whatever stands behind it. -/
theorem closeAt_of_closes (h : Closes d q inside) (after : Text) :
    closeAt d q (inside ++ ')' :: after) = some (inside, after) := by
  induction h with
  | done => simp [closeAt, isQuote]
  | escaped _ ih => simp [closeAt, ih]
  | unquote hq _ ih =>
    unfold closeAt
    simp [hq, ih]
  | quoted hc hq _ ih =>
    unfold closeAt
    simp [hc, hq, ih]
  | quote hc _ ih => simp [closeAt, hc, ih]
  | opened _ ih => simp [closeAt, isQuote, ih]
  | closed _ ih => simp [closeAt, isQuote, ih]
  | plain hq ho hc _ ih => simp [closeAt, hq, ho, hc, ih]

theorem eq_some_of_keep {c : Char} {r : Option (Text × Text)}
    (h : r.map (fun p => (c :: p.1, p.2)) = some (inside, after)) :
    ∃ i, r = some (i, after) ∧ inside = c :: i := by
  obtain ⟨⟨i, a⟩, hi, he⟩ := Option.map_eq_some_iff.mp h
  obtain ⟨rfl, rfl⟩ := Prod.mk.inj he
  exact ⟨i, hi, rfl⟩

/-- Where a parenthesis is found to close, what stands before it is closed in itself. -/
theorem closes_of_closeAt (h : closeAt d q s = some (inside, after)) :
    Closes d q inside ∧ s = inside ++ ')' :: after := by
  fun_induction closeAt d q s generalizing inside with
  | case1 => simp at h
  | case2 => simp at h
  | case3 d c _ q hc e s =>
    rename_i ih
    obtain ⟨i, hi, rfl⟩ := eq_some_of_keep h
    obtain ⟨j, hj, rfl⟩ := eq_some_of_keep hi
    obtain ⟨hcl, rfl⟩ := ih hj
    obtain rfl := beq_iff_eq.mp hc
    exact ⟨Closes.escaped hcl, rfl⟩
  | case4 d c s _ q hc hq =>
    rename_i ih
    obtain ⟨i, hi, rfl⟩ := eq_some_of_keep h
    obtain ⟨hcl, rfl⟩ := ih hi
    obtain rfl := beq_iff_eq.mp hq
    exact ⟨Closes.unquote (by simpa using hc) hcl, rfl⟩
  | case5 d c s _ q hc hq =>
    rename_i ih
    obtain ⟨i, hi, rfl⟩ := eq_some_of_keep h
    obtain ⟨hcl, rfl⟩ := ih hi
    exact ⟨Closes.quoted (by simpa using hc) (by simpa using hq) hcl, rfl⟩
  | case6 d c s _ hc =>
    rename_i ih
    obtain ⟨i, hi, rfl⟩ := eq_some_of_keep h
    obtain ⟨hcl, rfl⟩ := ih hi
    exact ⟨Closes.quote hc hcl, rfl⟩
  | case7 d c s _ hc ho =>
    rename_i ih
    obtain ⟨i, hi, rfl⟩ := eq_some_of_keep h
    obtain ⟨hcl, rfl⟩ := ih hi
    obtain rfl := beq_iff_eq.mp ho
    exact ⟨Closes.opened hcl, rfl⟩
  | case8 c s _ ho hp =>
    obtain ⟨rfl, rfl⟩ := Prod.mk.inj (Option.some.inj h)
    obtain rfl := beq_iff_eq.mp hp
    exact ⟨Closes.done, rfl⟩
  | case9 c s _ hc ho hp d =>
    rename_i ih
    obtain ⟨i, hi, rfl⟩ := eq_some_of_keep h
    obtain ⟨hcl, rfl⟩ := ih hi
    obtain rfl := beq_iff_eq.mp hp
    exact ⟨Closes.closed hcl, rfl⟩
  | case10 d c s _ hc ho hp =>
    rename_i ih
    obtain ⟨i, hi, rfl⟩ := eq_some_of_keep h
    obtain ⟨hcl, rfl⟩ := ih hi
    exact ⟨Closes.plain (by simpa using hc) (by simpa using ho) (by simpa using hp) hcl, rfl⟩

/-! ## Blanks around a test -/

theorem isQuote_of_isBlank {c : Char} (h : isBlank c = true) : isQuote c = false := by
  cases hq : isQuote c with
  | false => rfl
  | true =>
    simp only [isQuote, Bool.or_eq_true, beq_iff_eq] at hq
    rcases hq with (rfl | rfl) | rfl <;> simp [isBlank] at h

theorem ne_of_isBlank {c e : Char} (h : isBlank c = true) (he : isBlank e = false) : c ≠ e := by
  rintro rfl
  simp [h] at he

/-- A blank in front makes no difference to what is closed. -/
theorem closes_cons_blank {c : Char} (hc : isBlank c = true) :
    Closes d none (c :: s) ↔ Closes d none s := by
  have hq := isQuote_of_isBlank hc
  have ho : c ≠ '(' := ne_of_isBlank hc rfl
  have hp : c ≠ ')' := ne_of_isBlank hc rfl
  constructor
  · intro h
    cases h with
    | quote hquote _ => simp [hq] at hquote
    | opened _ => exact (ho rfl).elim
    | closed _ => exact (hp rfl).elim
    | plain _ _ _ h => exact h
  · exact Closes.plain hq ho hp

theorem closes_blank_append (ha : Blank a) : Closes d none (a ++ s) ↔ Closes d none s := by
  induction a with
  | nil => rfl
  | cons c a ih =>
    rw [List.cons_append, closes_cons_blank (ha c List.mem_cons_self)]
    exact ih fun e he => ha e (List.mem_cons_of_mem c he)

/-- A quote that is open stays open over blanks. -/
theorem not_closes_blank {c : Char} (hc : isBlank c = false) (hb : Blank b) :
    ¬ Closes d (some c) b := by
  intro h
  generalize hq : some c = q at h
  induction h with
  | done => simp at hq
  | escaped _ _ =>
    have := hb '\\' List.mem_cons_self
    simp [isBlank] at this
  | @unquote d e s _ _ _ =>
    have := hb e List.mem_cons_self
    simp_all
  | quoted _ _ _ ih => exact ih (fun e he => hb e (List.mem_cons_of_mem _ he)) hq
  | quote => simp at hq
  | opened => simp at hq
  | closed => simp at hq
  | plain => simp at hq

theorem closes_nil_of_blank (h : Closes d q b) (hq : ∀ c ∈ q, isBlank c = false)
    (hb : Blank b) : Closes d q [] := by
  cases q with
  | none =>
    rw [← List.append_nil b] at h
    exact (closes_blank_append hb).mp h
  | some c => exact (not_closes_blank (hq c rfl) hb h).elim

/-- The induction is on what is behind; where it is all blank, nothing is left open by
`closes_nil_of_blank`. -/
theorem closes_of_append_blank (h : Closes d q (u ++ b)) (hq : ∀ c ∈ q, isBlank c = false)
    (hb : Blank b) : Closes d q u := by
  obtain ⟨s, hs⟩ : ∃ s, u ++ b = s := ⟨_, rfl⟩
  rw [hs] at h
  induction h generalizing u with
  | done =>
    obtain ⟨rfl, rfl⟩ := List.append_eq_nil_iff.mp hs
    exact Closes.done
  | @escaped d c e s hcl ih =>
    obtain ⟨rfl, rfl⟩ | ⟨u, rfl, he⟩ := List.append_eq_cons_iff.mp hs
    · exact closes_nil_of_blank (Closes.escaped hcl) hq hb
    · obtain ⟨rfl, rfl⟩ | ⟨u, rfl, rfl⟩ := List.append_eq_cons_iff.mp he.symm
      · have hb' : Blank s := fun x hx => hb x (List.mem_cons_of_mem e hx)
        exact (not_closes_blank (hq c rfl) hb' hcl).elim
      · exact Closes.escaped (ih hq rfl)
  | @unquote d c s hne hcl ih =>
    obtain ⟨rfl, rfl⟩ | ⟨u, rfl, rfl⟩ := List.append_eq_cons_iff.mp hs
    · exact closes_nil_of_blank (Closes.unquote hne hcl) hq hb
    · exact Closes.unquote hne (ih (by simp) rfl)
  | @quoted d c e s hne hne' hcl ih =>
    obtain ⟨rfl, rfl⟩ | ⟨u, rfl, rfl⟩ := List.append_eq_cons_iff.mp hs
    · exact closes_nil_of_blank (Closes.quoted hne hne' hcl) hq hb
    · exact Closes.quoted hne hne' (ih hq rfl)
  | @quote d c s hc hcl ih =>
    obtain ⟨rfl, rfl⟩ | ⟨u, rfl, rfl⟩ := List.append_eq_cons_iff.mp hs
    · exact closes_nil_of_blank (Closes.quote hc hcl) hq hb
    · refine Closes.quote hc (ih ?_ rfl)
      rintro e ⟨rfl⟩
      cases he : isBlank c with
      | false => rfl
      | true => simp [isQuote_of_isBlank he] at hc
  | @opened d s hcl ih =>
    obtain ⟨rfl, rfl⟩ | ⟨u, rfl, rfl⟩ := List.append_eq_cons_iff.mp hs
    · exact closes_nil_of_blank (Closes.opened hcl) hq hb
    · exact Closes.opened (ih hq rfl)
  | @closed d s hcl ih =>
    obtain ⟨rfl, rfl⟩ | ⟨u, rfl, rfl⟩ := List.append_eq_cons_iff.mp hs
    · exact closes_nil_of_blank (Closes.closed hcl) hq hb
    · exact Closes.closed (ih hq rfl)
  | @plain d c s hc ho hp hcl ih =>
    obtain ⟨rfl, rfl⟩ | ⟨u, rfl, rfl⟩ := List.append_eq_cons_iff.mp hs
    · exact closes_nil_of_blank (Closes.plain hc ho hp hcl) hq hb
    · exact Closes.plain hc ho hp (ih hq rfl)

theorem Closes.trim (h : Closes 0 none s) : Closes 0 none (trim s) := by
  obtain ⟨a, b, ha, hb, hs⟩ := exists_trim s
  rw [hs, List.append_assoc, closes_blank_append ha] at h
  exact closes_of_append_blank h (by simp) hb

end Test

/-- What may stand between the parentheses of a branch. -/
structure IsTest (t : Text) : Prop where
  trimmed : Trimmed t
  closes : Test.Closes 0 none t
  oneLine : OneLine t

namespace BranchHead

variable {k : TestKeyword} {m : Mark} {line rest t : Text} {head : BranchHead}

/-- What stands behind the head of a branch is blank, or is its body without the blanks around it.
-/
theorem inlineBody_cases (m : Mark) (rest : Text) :
    (Blank rest ∧ inlineBody m rest = none) ∨
      Trimmed (trim rest) ∧ ∃ m', m'.line = m.line ∧ inlineBody m rest = some (m', trim rest) := by
  rw [inlineBody]
  split
  · next h =>
    left
    obtain ⟨a, b, ha, hb, hs⟩ := exists_trim rest
    refine ⟨?_, rfl⟩
    rw [hs, h]
    intro c hc
    rcases List.mem_append.mp hc with hc | hc
    · exact ha c (by simpa using hc)
    · exact hb c hc
  · next h =>
    right
    exact ⟨trimmed_trim h, m.right (margin rest), rfl, rfl⟩

theorem inlineBody_space (ht : Trimmed t) (m : Mark) :
    ∃ m', m'.line = m.line ∧ inlineBody m (' ' :: t) = some (m', t) := by
  rcases inlineBody_cases m (' ' :: t) with ⟨hb, _⟩ | ⟨_, h⟩
  · obtain ⟨c, s, rfl⟩ := List.exists_cons_of_ne_nil ht.ne_nil
    have := hb c (by simp)
    simp [startsSolid_cons.mp ht.starts] at this
  · rwa [ht.trim_cons_space] at h

/-- How a line with a test is taken apart. -/
theorem readTested_eq_ok (h : readTested k m (k.word ++ rest) = .ok head) :
    ∃ gap inside after, Blank gap ∧ rest = gap ++ '(' :: inside ++ ')' :: after ∧
      Test.Closes 0 none inside ∧ trim inside ≠ [] ∧
      head = ⟨some (trim inside),
        inlineBody (m.right ((k.word ++ rest).length - after.length)) after,
        m.span (k.word ++ rest).length⟩ := by
  rw [readTested, List.drop_left] at h
  obtain ⟨gap, hgap, hrest⟩ := exists_trimStart rest
  split at h
  · cases h
  · next inside after hen =>
    obtain ⟨s, hs⟩ : ∃ s, trimStart rest = '(' :: s := by
      rw [Test.enclosed?.eq_def] at hen
      split at hen
      · next s he => exact ⟨s, he⟩
      · cases hen
    rw [hs, Test.enclosed?] at hen
    obtain ⟨hcl, rfl⟩ := Test.closes_of_closeAt hen
    have hrest' : rest = gap ++ '(' :: inside ++ ')' :: after := by
      rw [hrest, hs]
      simp
    split at h
    · cases h
    · next htrim =>
      exact ⟨gap, inside, after, hgap, hrest', hcl, htrim, (Except.ok.inj h).symm⟩

theorem readTested_ok (h : readTested k m (k.word ++ rest) = .ok head) (hl : OneLine rest) :
    ∃ gap inside after, Blank gap ∧ rest = gap ++ '(' :: inside ++ ')' :: after ∧
      IsTest (trim inside) ∧ head.test = some (trim inside) ∧ head.span.start.line = m.line ∧
      ∃ m', m'.line = m.line ∧ head.inline = inlineBody m' after := by
  obtain ⟨gap, inside, after, hgap, hrest, hcl, htrim, rfl⟩ := readTested_eq_ok h
  have hin : OneLine inside := hl.subset (by rw [hrest]; simp +contextual)
  exact ⟨gap, inside, after, hgap, hrest, ⟨trimmed_trim htrim, hcl.trim,
    hin.subset (subset_trim inside)⟩, rfl, rfl, m.right _, rfl, rfl⟩

theorem rejects_of_readTested {e : Diagnostic} (h : readTested k m line = .error e) :
    e.Rejects m line := by
  rw [readTested] at h
  split at h
  · obtain rfl := Except.error.inj h
    exact Diagnostic.rejects_diagnose m line (by simp [Problem.code])
  · split at h
    · obtain rfl := Except.error.inj h
      exact Diagnostic.rejects_diagnose m line (by simp [Problem.code])
    · cases h

/-- A test between parentheses is read as it stands there. -/
theorem readTested_write (ht : IsTest t) (k : TestKeyword) (m : Mark) (rest : Text) :
    ∃ (m' : Mark) (span : Span), m'.line = m.line ∧ span.start.line = m.line ∧
      readTested k m (k.word ++ [' ', '('] ++ t ++ [')'] ++ rest) =
        .ok ⟨some t, inlineBody m' rest, span⟩ := by
  obtain ⟨line, hline⟩ : ∃ line, line = k.word ++ (' ' :: '(' :: (t ++ ')' :: rest)) := ⟨_, rfl⟩
  have hwritten : k.word ++ [' ', '('] ++ t ++ [')'] ++ rest = line := by simp [hline]
  have hstart : trimStart (' ' :: '(' :: (t ++ ')' :: rest)) = '(' :: (t ++ ')' :: rest) := by
    rw [← List.singleton_append, trimStart_append_of_blank blank_space, trimStart_eq_self]
    exact startsSolid_cons.mpr rfl
  have hdrop : line.drop k.word.length = ' ' :: '(' :: (t ++ ')' :: rest) := by
    rw [hline, List.drop_left]
  refine ⟨m.right (line.length - rest.length), m.span line.length, rfl, rfl, ?_⟩
  rw [hwritten, readTested, hdrop, hstart, Test.enclosed?, Test.closeAt_of_closes ht.closes]
  simp only [ht.trimmed.trim_eq]
  split
  · exact (ht.trimmed.ne_nil rfl).elim
  · rfl

end BranchHead

end Offside
