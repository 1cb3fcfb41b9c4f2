import Mathlib.Data.Option.Basic
import Offside.Proofs.Template.Element
import Offside.Template.Reader

/-! The kinds of lines, and loop lines. What is written of a node is a line of the kind that reads
it again. -/
namespace Offside

open Text

namespace LineKind

variable {s rest : Text} {c : Char}

/-- How a line of a kind starts. -/
def Heads : LineKind → Text → Prop
  | .id, s => ∃ rest, s = ['#', 'i', 'd'] ++ rest
  | .props, s => s = ['p', 'r', 'o', 'p', 's']
  | .classes, s => s = ['c', 'l', 'a', 's', 's', 'e', 's']
  | .ifLine, s => ∃ rest, s = TestKeyword.ifLine.word ++ rest
  | .elseIf, s => ∃ rest, s = TestKeyword.elseIf.word ++ rest
  | .elseLine, s => ∃ rest, s = ['@', 'e', 'l', 's', 'e'] ++ rest
  | .forLine, s => ∃ rest, s = ['@', 'f', 'o', 'r'] ++ rest
  | .pipe, s => ∃ rest, s = '|' :: rest
  | .expression, s => ∃ rest, s = '{' :: '{' :: rest
  | .element, s => s ≠ ['p', 'r', 'o', 'p', 's'] ∧ s ≠ ['c', 'l', 'a', 's', 's', 'e', 's']

theorem exists_of_isPrefixOf {w : Text} (h : w.isPrefixOf s = true) : ∃ rest, s = w ++ rest := by
  obtain ⟨rest, hrest⟩ := List.isPrefixOf_iff_prefix.mp h
  exact ⟨rest, hrest.symm⟩

theorem exists_of_startsWithWord {w : Text} (h : startsWithWord w s = true) :
    ∃ rest, s = w ++ rest := by
  rw [startsWithWord, Bool.and_eq_true] at h
  exact exists_of_isPrefixOf h.1

/-- The kind of a line says how the line starts. -/
theorem heads_ofText (s : Text) : (ofText s).Heads s := by
  rw [ofText]
  split
  · next h => exact exists_of_isPrefixOf h
  split
  · next h => exact beq_iff_eq.mp h
  split
  · next h => exact beq_iff_eq.mp h
  split
  · next h => exact exists_of_isPrefixOf h
  split
  · next h => exact exists_of_startsWithWord h
  split
  · next h => exact exists_of_startsWithWord h
  split
  · next h => exact exists_of_isPrefixOf h
  split
  · next h => exact exists_of_isPrefixOf h
  split
  · next h => exact exists_of_isPrefixOf h
  · next hp hc _ _ _ _ _ _ => exact ⟨by simpa using hp, by simpa using hc⟩

theorem atWordEnd_space (s : Text) : atWordEnd (' ' :: s) = true := rfl

theorem ofText_id (v : Text) : ofText (['#', 'i', 'd', ' '] ++ v) = .id := rfl

theorem ofText_if (s : Text) : ofText (TestKeyword.ifLine.word ++ s) = .ifLine := by
  simp [ofText, TestKeyword.word]

theorem ofText_elseIf (s : Text) : ofText (TestKeyword.elseIf.word ++ ' ' :: s) = .elseIf := by
  simp [ofText, startsWithWord, TestKeyword.word, atWordEnd_space]

theorem ofText_else (h : s = [] ∨ ∃ t, s = ' ' :: t) :
    ofText (['@', 'e', 'l', 's', 'e'] ++ s) = .elseLine := by
  rcases h with rfl | ⟨t, rfl⟩
  · simp [ofText, startsWithWord, atWordEnd]
  · simp [ofText, startsWithWord, atWordEnd_space]

theorem ofText_for (s : Text) : ofText (['@', 'f', 'o', 'r'] ++ s) = .forLine := by
  simp [ofText, startsWithWord]

theorem ofText_pipe (s : Text) : ofText ('|' :: s) = .pipe := by
  simp [ofText, startsWithWord]

theorem ofText_expression (s : Text) : ofText ('{' :: '{' :: s) = .expression := by
  simp [ofText, startsWithWord]

theorem ofText_element (hc : isAsciiWord c = true) (hp : c :: s ≠ ['p', 'r', 'o', 'p', 's'])
    (hcl : c :: s ≠ ['c', 'l', 'a', 's', 's', 'e', 's']) : ofText (c :: s) = .element := by
  have hne : ∀ d, isAsciiWord d = false → d ≠ c := by
    rintro d hd rfl
    simp [hc] at hd
  have h1 := hne '#' rfl
  have h2 := hne '@' rfl
  have h3 := hne '|' rfl
  have h4 := hne '{' rfl
  rw [ofText, if_neg (by simp [h1]), if_neg (by simpa using hp), if_neg (by simpa using hcl)]
  simp [startsWithWord, h2, h3, h4]

end LineKind

namespace Loop

variable {line rest v i : Text}

def isStart (c : Char) : Bool := c.isAlpha || c == '_' || c == '$'

/-- What the name of a variable goes on with. -/
def isRest (c : Char) : Bool := isAsciiWord c || c == '$'

end Loop

/-- What a loop line can say. -/
structure IsLoop (v i : Text) : Prop where
  starts : ∃ c s, v = c :: s ∧ Loop.isStart c = true
  chars : ∀ c ∈ v, Loop.isRest c = true
  trimmed : Trimmed i
  oneLine : OneLine i

namespace Loop

theorem isRest_of_isStart {c : Char} (h : isStart c = true) : isRest c = true := by
  simp only [isStart, Bool.or_eq_true, beq_iff_eq] at h
  simp only [isRest, isAsciiWord, Char.isAlphanum, Bool.or_eq_true, beq_iff_eq]
  tauto

theorem isBlank_of_isRest {c : Char} (h : isRest c = true) : isBlank c = false := by
  simp only [isRest, Bool.or_eq_true, beq_iff_eq] at h
  rcases h with h | rfl
  · exact isBlank_of_isAsciiWord h
  · rfl

theorem solid_of_isLoop (h : IsLoop v i) : Solid v := fun c hc => isBlank_of_isRest (h.chars c hc)

theorem trim_ne_nil (hs : i ≠ []) (h : StartsSolid i) : trim i ≠ [] := by
  rw [trim, trimStart_eq_self h]
  intro hnil
  obtain ⟨c, s, rfl⟩ := List.exists_cons_of_ne_nil hs
  have := trimEnd_eq_nil_iff.mp hnil c List.mem_cons_self
  simp [startsSolid_cons.mp h] at this

theorem bind_guard_eq_some {α : Type} {p : Prop} [Decidable p] {f : Unit → Option α} {a : α} :
    (guard p >>= f) = some a ↔ p ∧ f () = some a := by
  constructor
  · intro h
    obtain ⟨u, hu, hf⟩ := Option.bind_eq_some_iff.mp h
    exact ⟨(Option.guard_eq_some' u).mp hu, hf⟩
  · rintro ⟨hp, hf⟩
    exact Option.bind_eq_some_iff.mpr ⟨(), (Option.guard_eq_some' ()).mpr hp, hf⟩

/-- How a loop line is taken apart. -/
theorem read?_parts (h : read? (['@', 'f', 'o', 'r'] ++ rest) = some (v, i)) :
    ∃ gap gap' after, Blank gap ∧ Blank gap' ∧ rest = gap ++ v ++ gap' ++ ['i', 'n'] ++ after ∧
      (∃ c s, v = c :: s ∧ isStart c = true) ∧ (∀ c ∈ v, isRest c = true) ∧
      trimStart after ≠ [] ∧ i = trim (trimStart after) := by
  have hdrop : (['@', 'f', 'o', 'r'] ++ rest).drop 4 = rest := rfl
  have hrest : (fun c => isAsciiWord c || c == '$') = isRest := rfl
  have hstart : (fun c : Char => c.isAlpha || c == '_' || c == '$') = isStart := rfl
  rw [read?] at h
  dsimp only at h
  rw [hdrop, hrest, hstart] at h
  obtain ⟨hstarts, h⟩ := bind_guard_eq_some.mp h
  obtain ⟨-, h⟩ := bind_guard_eq_some.mp h
  obtain ⟨after, hword, h⟩ := Option.bind_eq_some_iff.mp h
  obtain ⟨hends, h⟩ := bind_guard_eq_some.mp h
  obtain ⟨rfl, rfl⟩ := Prod.mk.inj (Option.some.inj h)
  obtain ⟨-, c, hhead, hc⟩ : _ ∧ ∃ c, (trimStart rest).head? = some c ∧ isStart c = true := by
    simpa only [Bool.and_eq_true, Option.any_eq_true] using hstarts
  have hne := (Bool.and_eq_true _ _ ▸ hends).2
  obtain ⟨gap, hgap, hs⟩ := exists_trimStart rest
  obtain ⟨gap', hgap', ht⟩ := exists_trimStart ((trimStart rest).dropWhile isRest)
  obtain ⟨s, hcs⟩ := List.head?_eq_some_iff.mp hhead
  have hword := List.isPrefixOf?_eq_some_iff_append_eq.mp hword
  refine ⟨gap, gap', after, hgap, hgap', ?_, ⟨c, s.takeWhile isRest, ?_, hc⟩, ?_, ?_, rfl⟩
  · rw [List.append_assoc, List.append_assoc, List.append_assoc, hword, ← ht,
      List.takeWhile_append_dropWhile, ← hs]
  · rw [hcs, List.takeWhile_cons_of_pos (isRest_of_isStart hc)]
  · exact fun d hd => List.mem_takeWhile_imp hd
  · simpa using hne

/-- A loop that is read has a variable and something to go over, and shows all ink of its line. -/
theorem read?_eq_some (h : read? (['@', 'f', 'o', 'r'] ++ rest) = some (v, i)) (hl : OneLine rest) :
    IsLoop v i ∧ ink rest = v ++ ['i', 'n'] ++ ink i := by
  obtain ⟨gap, gap', after, hgap, hgap', rfl, hstarts, hchars, hne, rfl⟩ := read?_parts h
  have hloop : IsLoop v (trim (trimStart after)) := by
    refine ⟨hstarts, hchars, trimmed_trim (trim_ne_nil hne (startsSolid_trimStart after)), ?_⟩
    refine hl.subset fun c hc => ?_
    obtain ⟨a, -, ha⟩ := exists_trimStart after
    have hc' := subset_trim _ c hc
    refine List.mem_append_right _ ?_
    rw [ha]
    exact List.mem_append_right a hc'
  refine ⟨hloop, ?_⟩
  simp only [ink_append, ink_eq_nil hgap, ink_eq_nil hgap', ink_of_solid (solid_of_isLoop hloop),
    ink_trim, ink_trimStart, List.nil_append, List.append_nil]
  rfl

/-- A loop line is read as it is written. -/
theorem read?_write (h : IsLoop v i) :
    read? (['@', 'f', 'o', 'r', ' '] ++ v ++ [' ', 'i', 'n', ' '] ++ i) = some (v, i) := by
  obtain ⟨c, s, hcs, hc⟩ := h.starts
  have hsolid := solid_of_isLoop h
  obtain ⟨tail, htail⟩ : ∃ tail : Text, tail = ' ' :: 'i' :: 'n' :: ' ' :: i := ⟨_, rfl⟩
  have hdrop : (['@', 'f', 'o', 'r', ' '] ++ v ++ [' ', 'i', 'n', ' '] ++ i).drop 4 =
      ' ' :: (v ++ tail) := by simp [htail]
  have hspace : ∀ s : Text, StartsSolid s → trimStart (' ' :: s) = s := by
    intro s hs
    rw [← List.singleton_append, trimStart_append_of_blank blank_space, trimStart_eq_self hs]
  have hnamed : trimStart (' ' :: (v ++ tail)) = v ++ tail :=
    hspace _ (hsolid.startsSolid.append (by simp [hcs]))
  have htake : (v ++ tail).takeWhile isRest = v := by
    rw [List.takeWhile_append_of_pos h.chars, htail, List.takeWhile_cons_of_neg (by decide),
      List.append_nil]
  have hafter : (v ++ tail).dropWhile isRest = tail := by
    rw [List.dropWhile_append_of_pos h.chars, htail, List.dropWhile_cons_of_neg (by decide)]
  have hword : trimStart tail = 'i' :: 'n' :: ' ' :: i :=
    htail ▸ hspace _ (startsSolid_cons.mpr rfl)
  have hiter : trimStart (' ' :: i) = i := hspace i h.trimmed.starts
  have hhead : (v ++ tail).head?.any isStart = true := by simp [hcs, hc]
  have hin : ['i', 'n'].isPrefixOf? ('i' :: 'n' :: ' ' :: i) = some (' ' :: i) :=
    List.isPrefixOf?_eq_some_iff_append_eq.mpr rfl
  have hrest : (fun c => isAsciiWord c || c == '$') = isRest := rfl
  have hstart : (fun c : Char => c.isAlpha || c == '_' || c == '$') = isStart := rfl
  rw [read?]
  dsimp only
  rw [hdrop, hrest, hstart, hnamed, htake, hafter, hword, hhead, hin]
  refine bind_guard_eq_some.mpr ⟨by simp, bind_guard_eq_some.mpr ⟨by simp [htail], ?_⟩⟩
  refine Option.bind_eq_some_iff.mpr ⟨_, rfl, bind_guard_eq_some.mpr ⟨?_, ?_⟩⟩
  · simp [hiter, h.trimmed.ne_nil]
  · rw [hiter, h.trimmed.trim_eq]

end Loop

end Offside
