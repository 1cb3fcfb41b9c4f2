import Offside.Proofs.Text.Trim

/-! A text and its lines: cutting at line feeds undoes joining, and no line holds a line break. -/
namespace Offside.Text

variable {p : Char → Bool} {s w : Text} {ls : List Text} {c : Char}

/-- No character of the text ends a line. -/
def Unbroken (s : Text) : Prop := ∀ c ∈ s, c ≠ '\n' ∧ c ≠ '\r'

/-- The text can stand in a line that is read: it holds no line break and no tab. -/
def OneLine (s : Text) : Prop := ∀ c ∈ s, c ≠ '\n' ∧ c ≠ '\r' ∧ c ≠ '\t'

theorem OneLine.unbroken (h : OneLine s) : Unbroken s := fun c hc => ⟨(h c hc).1, (h c hc).2.1⟩

theorem unbroken_nil : Unbroken [] := List.forall_mem_nil _

theorem unbroken_cons : Unbroken (c :: s) ↔ (c ≠ '\n' ∧ c ≠ '\r') ∧ Unbroken s :=
  List.forall_mem_cons

theorem unbroken_append {t : Text} : Unbroken (s ++ t) ↔ Unbroken s ∧ Unbroken t :=
  List.forall_mem_append

theorem unbroken_flatMap {α : Type} {f : α → Text} {as : List α} :
    Unbroken (as.flatMap f) ↔ ∀ a ∈ as, Unbroken (f a) := by
  simp only [Unbroken, List.mem_flatMap]
  exact ⟨fun h a ha x hx => h x ⟨a, ha, hx⟩, fun h x ⟨a, ha, hx⟩ => h a ha x hx⟩

theorem OneLine.append {t : Text} (hs : OneLine s) (ht : OneLine t) : OneLine (s ++ t) := by
  intro c hc
  rcases List.mem_append.mp hc with hc | hc
  · exact hs c hc
  · exact ht c hc

theorem OneLine.subset {t : Text} (hs : OneLine s) (h : ∀ c ∈ t, c ∈ s) : OneLine t :=
  fun c hc => hs c (h c hc)

theorem Solid.oneLine (h : Solid s) : OneLine s := by
  intro c hc
  have hb := h c hc
  refine ⟨?_, ?_, ?_⟩ <;> rintro rfl <;> simp [isBlank] at hb

theorem splitWhen_ne_nil (p : Char → Bool) (s : Text) : splitWhen p s ≠ [] := by
  cases s with
  | nil => simp [splitWhen]
  | cons c s =>
    rw [splitWhen]
    split
    · simp
    · split <;> simp

theorem splitWhen_cons_of_neg (hc : p c = false) {t : Text} {ts : List Text}
    (h : splitWhen p s = t :: ts) : splitWhen p (c :: s) = (c :: t) :: ts := by
  simp [splitWhen, hc, h]

theorem splitWhen_append (hw : ∀ c ∈ w, p c = false) {t : Text} {ts : List Text}
    (h : splitWhen p s = t :: ts) : splitWhen p (w ++ s) = (w ++ t) :: ts := by
  induction w with
  | nil => exact h
  | cons c w ih =>
    have hc : p c = false := hw c List.mem_cons_self
    exact splitWhen_cons_of_neg hc (ih fun d hd => hw d (List.mem_cons_of_mem c hd))

theorem splitWhen_of_all_neg (hw : ∀ c ∈ w, p c = false) : splitWhen p w = [w] := by
  have h : splitWhen p ([] : Text) = [[]] := rfl
  simpa using splitWhen_append hw h

theorem splitWhen_append_cons (hw : ∀ c ∈ w, p c = false) (hc : p c = true) (s : Text) :
    splitWhen p (w ++ c :: s) = w :: splitWhen p s := by
  have h : splitWhen p (c :: s) = [] :: splitWhen p s := by simp [splitWhen, hc]
  simpa using splitWhen_append hw h

/-- Texts with a character between them that none of them has are found again at that character. -/
theorem splitWhen_intercalate {e : Char} {ts : List Text} (h : ts ≠ []) (hts : ∀ t ∈ ts, e ∉ t) :
    splitWhen (· == e) ([e].intercalate ts) = ts := by
  induction ts with
  | nil => exact (h rfl).elim
  | cons t ts ih =>
    obtain ⟨ht, hts⟩ := List.forall_mem_cons.mp hts
    have hneg : ∀ c ∈ t, (c == e) = false := by
      intro c hc
      have hne : c ≠ e := fun he => ht (he ▸ hc)
      simp [hne]
    cases ts with
    | nil => simpa using splitWhen_of_all_neg hneg
    | cons u us =>
      have he : [e].intercalate (t :: u :: us) = t ++ e :: [e].intercalate (u :: us) := by
        simp [List.intercalate]
      rw [he, splitWhen_append_cons hneg (by simp), ih (by simp) hts]

/-- What stands between two separators holds none. -/
theorem neg_of_mem_splitWhen : ∀ {s : Text} {w : Text}, w ∈ splitWhen p s → ∀ c ∈ w, p c = false
  | [], w, hw, c, hc => by
    simp only [splitWhen, List.mem_singleton] at hw
    simp [hw] at hc
  | d :: s, w, hw, c, hc => by
    have ih := @neg_of_mem_splitWhen s
    obtain ⟨t, ts, ht⟩ := List.exists_cons_of_ne_nil (splitWhen_ne_nil p s)
    cases hd : p d with
    | true =>
      simp only [splitWhen, hd, if_true, List.mem_cons] at hw
      rcases hw with rfl | hw
      · simp at hc
      · exact ih hw c hc
    | false =>
      rw [splitWhen_cons_of_neg hd ht, List.mem_cons] at hw
      rcases hw with rfl | hw
      · rcases List.mem_cons.mp hc with rfl | hc
        · exact hd
        · exact ih (by simp [ht]) c hc
      · exact ih (by simp [ht, hw]) c hc

/-- The pieces hold every character that does not separate them. -/
theorem flatten_splitWhen (p : Char → Bool) (s : Text) :
    (splitWhen p s).flatten = s.filter (!p ·) := by
  induction s with
  | nil => rfl
  | cons c s ih =>
    obtain ⟨t, ts, ht⟩ := List.exists_cons_of_ne_nil (splitWhen_ne_nil p s)
    cases hc : p c with
    | true => simp [splitWhen, hc, ih]
    | false =>
      rw [splitWhen_cons_of_neg hc ht]
      rw [ht] at ih
      simp [hc, ← ih]

/-! ## Line breaks -/

theorem not_mem_unifyNewlines (s : Text) : '\r' ∉ unifyNewlines s := by
  fun_induction unifyNewlines s with
  | case1 => simp
  | case2 s ih => simp [ih]
  | case3 s _ ih => simp [ih]
  | case4 c s hc1 hc2 ih =>
    simp only [List.mem_cons, not_or]
    exact ⟨fun h => hc2 h.symm, ih⟩

theorem unifyNewlines_of_not_mem (h : '\r' ∉ s) : unifyNewlines s = s := by
  fun_induction unifyNewlines s with
  | case1 => rfl
  | case2 s ih => simp at h
  | case3 s _ ih => simp at h
  | case4 c s _ _ ih => rw [ih (fun hm => h (List.mem_cons_of_mem c hm))]

theorem ink_unifyNewlines (s : Text) : ink (unifyNewlines s) = ink s := by
  have hn : isBlank '\n' = true := rfl
  have hr : isBlank '\r' = true := rfl
  fun_induction unifyNewlines s with
  | case1 => rfl
  | case2 s ih => simp only [ink_cons_of_blank hn, ink_cons_of_blank hr, ih]
  | case3 s _ ih => simp only [ink_cons_of_blank hn, ink_cons_of_blank hr, ih]
  | case4 c s _ _ ih =>
    rw [← List.singleton_append, ink_append, ih, ← ink_append, List.singleton_append]

theorem unbroken_of_mem_lines {l : Text} (h : l ∈ lines (unifyNewlines s)) : Unbroken l := by
  intro c hc
  constructor
  · have hn := neg_of_mem_splitWhen h c hc
    simpa using hn
  · rintro rfl
    apply not_mem_unifyNewlines s
    have hm : '\r' ∈ (lines (unifyNewlines s)).flatten := List.mem_flatten.mpr ⟨l, h, hc⟩
    rw [lines, flatten_splitWhen] at hm
    exact (List.mem_filter.mp hm).1

theorem lines_feed (s : Text) : lines ('\n' :: s) = [] :: lines s := rfl

theorem lines_cons {l : Text} (hc : c ≠ '\n') (h : lines s = l :: ls) :
    lines (c :: s) = (c :: l) :: ls :=
  splitWhen_cons_of_neg (by simpa using hc) h

/-- The lines of two texts with a line feed between are the lines of the first and of the second. A
carriage return at the end of the first is one line break with the line feed, so an empty last line
of the first is lost then. -/
theorem lines_append (s t : Text) : ∃ l ls,
    (lines (unifyNewlines s) = l :: ls ∨ lines (unifyNewlines s) = l :: ls ++ [[]]) ∧
      lines (unifyNewlines (s ++ '\n' :: t)) = l :: ls ++ lines (unifyNewlines t) := by
  have hfeed : ∀ {u v w : Text} {l : Text} {ls : List Text},
      (lines u = l :: ls ∨ lines u = l :: ls ++ [[]]) → lines v = l :: ls ++ lines w →
        (lines ('\n' :: u) = [] :: l :: ls ∨ lines ('\n' :: u) = [] :: l :: ls ++ [[]]) ∧
          lines ('\n' :: v) = [] :: l :: ls ++ lines w := by
    intro u v w l ls hu hv
    rw [lines_feed, lines_feed, hv]
    refine ⟨?_, rfl⟩
    rcases hu with hu | hu
    · exact Or.inl (by rw [hu])
    · exact Or.inr (by rw [hu]; rfl)
  fun_induction unifyNewlines s with
  | case1 => exact ⟨[], [], Or.inl rfl, rfl⟩
  | case2 s ih =>
    obtain ⟨l, ls, hs, ht⟩ := ih
    rw [List.cons_append, List.cons_append, unifyNewlines]
    exact ⟨[], l :: ls, hfeed hs ht⟩
  | case3 s hs ih =>
    cases s with
    | nil => exact ⟨[], [], Or.inr rfl, rfl⟩
    | cons c s =>
      obtain ⟨l, ls, hs', ht⟩ := ih
      have hc : ∀ u, c :: s ++ '\n' :: t = '\n' :: u → False := by
        intro u hu
        obtain ⟨rfl, -⟩ := List.cons.inj hu
        exact hs s rfl
      rw [List.cons_append, unifyNewlines]
      · exact ⟨[], l :: ls, hfeed hs' ht⟩
      · exact hc
  | case4 c s hc hc' ih =>
    obtain ⟨l, ls, hs, ht⟩ := ih
    rw [List.cons_append, unifyNewlines]
    · by_cases hn : c = '\n'
      · subst hn
        exact ⟨[], l :: ls, hfeed hs ht⟩
      · refine ⟨c :: l, ls, ?_, lines_cons hn ht⟩
        rcases hs with hs | hs
        · exact Or.inl (lines_cons hn hs)
        · exact Or.inr (lines_cons hn hs)
    · exact fun u hu _ => hc' hu
    · exact hc'

theorem ink_lines (s : Text) : (lines (unifyNewlines s)).flatMap ink = ink s := by
  rw [← ink_flatten, lines, flatten_splitWhen, ← ink_unifyNewlines s, ink, ink, List.filter_filter]
  congr 1
  funext c
  by_cases hc : c = '\n'
  · subst hc
    rfl
  · simp [hc]

theorem Unbroken.line_feed (h : Unbroken s) : ∀ c ∈ s, (c == '\n') = false := by
  intro c hc
  simp [(h c hc).1]

theorem unlines_cons_cons (l l' : Text) (ls : List Text) :
    unlines (l :: l' :: ls) = l ++ '\n' :: unlines (l' :: ls) := by
  simp [unlines, List.intercalate]

theorem unlines_cons (l : Text) (ls : List Text) :
    unlines (l :: ls) = l ++ ls.flatMap ('\n' :: ·) := by
  induction ls generalizing l with
  | nil => simp [unlines]
  | cons l' ls ih =>
    rw [unlines_cons_cons, ih]
    simp

theorem lines_unlines (hne : ls ≠ []) (h : ∀ l ∈ ls, Unbroken l) : lines (unlines ls) = ls := by
  induction ls with
  | nil => exact (hne rfl).elim
  | cons l ls ih =>
    have hl := (h l List.mem_cons_self).line_feed
    cases ls with
    | nil => simpa [unlines, lines] using splitWhen_of_all_neg hl
    | cons l' ls =>
      have ih := ih (by simp) fun k hk => h k (List.mem_cons_of_mem l hk)
      rw [unlines_cons_cons, lines, splitWhen_append_cons hl rfl]
      exact congrArg (l :: ·) ih

theorem endLines_eq_unlines (hne : ls ≠ []) : endLines ls = unlines (ls ++ [[]]) := by
  obtain ⟨l, ks, rfl⟩ := List.exists_cons_of_ne_nil hne
  have h : unlines (l :: ks) ++ ['\n'] = unlines (l :: (ks ++ [[]])) := by
    clear hne
    induction ks generalizing l with
    | nil => simp [unlines, List.intercalate]
    | cons k ks ih =>
      rw [unlines_cons_cons, List.cons_append, unlines_cons_cons, ← ih k]
      simp
  simpa [endLines] using h

/-- Unbroken lines put together hold no carriage return. -/
theorem not_mem_unlines (h : ∀ l ∈ ls, Unbroken l) : '\r' ∉ unlines ls := by
  intro hm
  rw [unlines, List.intercalate, List.mem_flatten] at hm
  obtain ⟨l, hl, hc⟩ := hm
  have hcases : l ∈ ls ∨ l = ['\n'] := by
    clear h hc
    induction ls with
    | nil => simp at hl
    | cons k ks ih =>
      cases ks with
      | nil => exact Or.inl (by simpa using hl)
      | cons k' ks =>
        simp only [List.intersperse, List.mem_cons] at hl ih ⊢
        tauto
  rcases hcases with hl | rfl
  · exact ((h l hl) '\r' hc).2 rfl
  · simp at hc

theorem not_mem_endLines (h : ∀ l ∈ ls, Unbroken l) : '\r' ∉ endLines ls := by
  by_cases hne : ls = []
  · simp [hne, endLines]
  · rw [endLines_eq_unlines hne]
    refine not_mem_unlines fun l hl => ?_
    rcases List.mem_append.mp hl with hl | hl
    · exact h l hl
    · simp [List.mem_singleton.mp hl, Unbroken]

/-- Reading the lines of a text that ends each of them gives them back, and an empty last one. -/
theorem lines_endLines (h : ∀ l ∈ ls, Unbroken l) :
    lines (unifyNewlines (endLines ls)) = ls ++ [[]] := by
  cases hls : ls with
  | nil => rfl
  | cons l ks =>
    have hne : ls ≠ [] := by simp [hls]
    have h' : ∀ l ∈ ls ++ [[]], Unbroken l := by
      intro l hl
      rcases List.mem_append.mp hl with hl | hl
      · exact h l hl
      · intro c hc
        simp [List.mem_singleton.mp hl] at hc
    rw [← hls, endLines_eq_unlines hne, unifyNewlines_of_not_mem (not_mem_unlines h'),
      lines_unlines (by simp) h']

/-! ## Ways to end a line -/

/-- A line feed, a carriage return with one, and a carriage return. -/
def lineEnds : List Text := [['\n'], ['\r', '\n'], ['\r']]

theorem unifyNewlines_append_of_unbroken {l : Text} (hl : Unbroken l) (s : Text) :
    unifyNewlines (l ++ s) = l ++ unifyNewlines s := by
  induction l with
  | nil => rfl
  | cons c l ih =>
    have hc := (hl c List.mem_cons_self).2
    have ih := ih fun d hd => hl d (List.mem_cons_of_mem c hd)
    rw [List.cons_append, unifyNewlines, ih, List.cons_append]
    · exact fun _ h => (hc h).elim
    · exact fun h => (hc h).elim

/-- The end of a line, of whatever sort, becomes a line feed. -/
theorem unifyNewlines_lineEnd {e : Text} (he : e ∈ lineEnds)
    (hs : e = ['\r'] → s.head? ≠ some '\n') :
    unifyNewlines (e ++ s) = '\n' :: unifyNewlines s := by
  simp only [lineEnds, List.mem_cons, List.not_mem_nil, or_false] at he
  rcases he with rfl | rfl | rfl
  · rfl
  · rfl
  · cases s with
    | nil => rfl
    | cons c s =>
      have hc : c ≠ '\n' := by simpa using hs rfl
      rw [List.singleton_append, unifyNewlines]
      rintro t ⟨⟩
      exact hc rfl

/-- Lines that end with a carriage return start with no line feed. -/
theorem head?_intercalate_ne (h : ∀ l ∈ ls, Unbroken l) :
    (['\r'].intercalate ls).head? ≠ some '\n' := by
  rcases ls with _ | ⟨l, ls⟩
  · simp
  · rcases l with _ | ⟨c, l⟩
    · cases ls <;> simp [List.intercalate]
    · have hc := (h (c :: l) List.mem_cons_self c List.mem_cons_self).1
      cases ls <;> simpa [List.intercalate] using hc

/-- Lines with one of the ends between them are read as these lines. -/
theorem lines_intercalate {e : Text} (he : e ∈ lineEnds) (hne : ls ≠ [])
    (h : ∀ l ∈ ls, Unbroken l) : lines (unifyNewlines (e.intercalate ls)) = ls := by
  have hunify : unifyNewlines (e.intercalate ls) = unlines ls := by
    clear hne
    induction ls with
    | nil => rfl
    | cons l ls ih =>
      obtain ⟨hl, hls⟩ := List.forall_mem_cons.mp h
      cases ls with
      | nil => simpa [unlines, unifyNewlines] using unifyNewlines_append_of_unbroken hl []
      | cons l' ls =>
        have hjoin : e.intercalate (l :: l' :: ls) = l ++ (e ++ e.intercalate (l' :: ls)) := by
          simp [List.intercalate]
        have hend : e = ['\r'] → (e.intercalate (l' :: ls)).head? ≠ some '\n' := by
          rintro rfl
          exact head?_intercalate_ne hls
        rw [hjoin, unifyNewlines_append_of_unbroken hl, unifyNewlines_lineEnd he hend, ih hls,
          unlines_cons_cons]
  rw [hunify, lines_unlines hne h]

/-- A blank between texts adds no ink. -/
theorem ink_intercalate {c : Char} (hc : isBlank c = true) (ls : List Text) :
    ink ([c].intercalate ls) = ls.flatMap ink := by
  induction ls with
  | nil => rfl
  | cons l ls ih =>
    cases ls with
    | nil => simp [List.intercalate]
    | cons l' ls =>
      rw [List.intercalate_cons_cons, List.append_assoc, ink_append, List.singleton_append,
        ink_cons_of_blank hc, ih]
      rfl

theorem ink_unlines (ls : List Text) : ink (unlines ls) = ls.flatMap ink :=
  ink_intercalate rfl ls

theorem ink_endLines (ls : List Text) : ink (endLines ls) = ls.flatMap ink := by
  rw [endLines]
  split
  · next h =>
    rw [List.isEmpty_iff.mp h]
    rfl
  · rw [ink_append, ink_unlines, ink_cons_of_blank rfl, ink_nil, List.append_nil]

end Offside.Text
