import Offside.Proofs.Template.Element
import Offside.Proofs.Template.Span

/-! Reading by looking ahead. Where a reader goes over its text once, it finds what looking for the
next pair of braces finds, or for the next class: again and again, with the literals that are left
over put together at the end. -/
namespace Offside

open Text

/-- A text that is not cut has the pair nowhere. -/
theorem cutAtPair_eq_none {s : Text} {a b : Char} (h : cutAtPair a b s = none) :
    s.IsChain fun x y => ¬(x = a ∧ y = b) := by
  fun_induction cutAtPair a b s with
  | case1 x y s hxy => cases h
  | case2 x y s hxy ih =>
    refine List.isChain_cons_cons.mpr ⟨by simpa using hxy, ih ?_⟩
    simpa using h
  | case3 s hs =>
    cases s with
    | nil => exact List.isChain_nil
    | cons x s =>
      cases s with
      | nil => exact List.isChain_singleton x
      | cons y s => exact (hs x y s rfl).elim

/-! ## Pairs of braces -/

/-- Neighbouring literals put together. -/
def Part.glue : List Part → List Part
  | .literal v :: ps =>
    match glue ps with
    | .literal w :: qs => .literal (v ++ w) :: qs
    | qs => .literal v :: qs
  | p :: ps => p :: glue ps
  | [] => []

namespace Pipe

/-- What stands in front of the first closing pair and behind it, if the next opening pair comes
later. -/
def cutAtStray (s : Text) : Option (Text × Text) :=
  (cutAtPair '}' '}' s).filter fun (v, _) =>
    (cutAtPair '{' '{' s).all fun (w, _) => v.length < w.length

/-- A literal, if there is anything to it. -/
def chunk (v : Text) : List Part := if v.isEmpty then [] else [.literal v]

theorem length_of_cutAtPair {a b : Char} {s v rest : Text} (h : cutAtPair a b s = some (v, rest)) :
    s.length = v.length + rest.length + 2 := by
  rw [(Node.cutAtPair_eq_some h).1, List.length_append, List.length_cons, List.length_cons]
  omega

theorem cutAtPair_of_cutAtStray {s v rest : Text} (h : cutAtStray s = some (v, rest)) :
    cutAtPair '}' '}' s = some (v, rest) ∧
      ∀ w ∈ cutAtPair '{' '{' s, v.length < w.1.length := by
  obtain ⟨hcut, hall⟩ := Option.filter_eq_some_iff.mp h
  simpa [Option.all_eq_true] using And.intro hcut hall

/-- The parts of a payload as they are found by looking for the next pair. -/
def pieces (m : Mark) (s : Text) : List Part × List Diagnostic :=
  match _hs : cutAtStray s with
  | some (v, rest) =>
    let (ps, ds) := pieces (m.right (v.length + 2)) rest
    (chunk v ++ ps, (m.right v.length).diagnose .strayClose 2 :: ds)
  | none =>
    match _ho : cutAtPair '{' '{' s with
    | none => (chunk s, [])
    | some (v, rest) =>
      let o := m.right v.length
      match _hc : cutAtPair '}' '}' rest with
      | none => (chunk v ++ [.literal ('{' :: '{' :: rest)], [o.diagnose .openExpression 1])
      | some (inner, after) =>
        let length := inner.length + 4
        let (ps, ds) := pieces (o.right length) after
        match trim inner with
        | [] => (chunk v ++ ps, o.diagnose .emptyInlineExpression length :: ds)
        | value => (chunk v ++ .expression value (some (o.span length)) :: ps, ds)
termination_by s.length
decreasing_by
  · have hlength := length_of_cutAtPair (cutAtPair_of_cutAtStray _hs).1
    omega
  · have hopen := length_of_cutAtPair _ho
    have hclose := length_of_cutAtPair _hc
    omega

variable {m o : Mark} {s v w rest inner : Text}

theorem consText_literal (v w : Text) (ps : List Part) :
    Part.consText v (.literal w :: ps) = .literal (v ++ w) :: ps := by
  induction v with
  | nil => rfl
  | cons c v ih => rw [Part.consText, List.foldr_cons, ← Part.consText, ih]; rfl

/-- A literal in front of parts is put into the first of them if that is literal. -/
theorem glue_literal (hv : v ≠ []) (ps : List Part) :
    Part.glue (.literal v :: ps) = Part.consText v (Part.glue ps) := by
  have hcons : ∀ qs, Part.consChar (v.getLast hv) qs = .literal [v.getLast hv] :: qs →
      Part.consText v qs = .literal v :: qs := by
    intro qs hqs
    conv_lhs => rw [← List.dropLast_append_getLast hv]
    rw [Part.consText, List.foldr_append, List.foldr_cons, List.foldr_nil, hqs, ← Part.consText,
      consText_literal, List.dropLast_append_getLast]
  rw [Part.glue]
  split
  · next w qs hglue => rw [hglue, consText_literal]
  · next hglue =>
    refine (hcons _ ?_).symm
    cases hps : Part.glue ps with
    | nil => rfl
    | cons p qs =>
      cases p with
      | literal w => exact (hglue w qs hps).elim
      | expression => rfl

theorem glue_chunk (v : Text) (ps : List Part) :
    Part.glue (chunk v ++ ps) = Part.consText v (Part.glue ps) := by
  rw [chunk]
  cases v with
  | nil => rfl
  | cons c v => exact glue_literal (List.cons_ne_nil c v) ps

/-- A text in which no pair begins is literal. -/
theorem readParts_plain (rest : Text) (hopen : NoPair '{' (v ++ rest.head?.toList))
    (hclose : NoPair '}' (v ++ rest.head?.toList)) (m : Mark) :
    readParts m none (v ++ rest) =
      (Part.consText v (readParts (m.right v.length) none rest).1,
        (readParts (m.right v.length) none rest).2) := by
  induction v generalizing m with
  | nil => rfl
  | cons c v ih =>
    have hapart : Apart c (v ++ rest) := by
      intro d hd
      cases v with
      | nil =>
        rw [List.nil_append] at hd
        rw [hd] at hopen hclose
        exact ⟨(List.isChain_cons_cons.mp hclose).1, (List.isChain_cons_cons.mp hopen).1⟩
      | cons e v =>
        obtain rfl : e = d := Option.some.inj hd
        exact ⟨(List.isChain_cons_cons.mp hclose).1, (List.isChain_cons_cons.mp hopen).1⟩
    rw [List.cons_append, readParts_apart hapart, ih hopen.tail hclose.tail, Mark.right_right,
      List.length_cons, Nat.add_comm 1]
    rfl

/-- In front of the first pair of one kind there is none of another that comes later. -/
theorem noPair_of_lt {c d : Char} {w after : Text} (h : cutAtPair c c s = some (w, after))
    (hs : s = v ++ d :: rest) (hlt : v.length < w.length) : NoPair c (v ++ [d]) := by
  obtain ⟨hw, hno⟩ := Node.cutAtPair_eq_some h
  have hfront : v ++ [d] <+: s := ⟨rest, by simp [hs]⟩
  have hlonger : w ++ [c] <+: s := ⟨c :: after, by simp [hw]⟩
  have hlength : (v ++ [d]).length ≤ (w ++ [c]).length := by
    simp only [List.length_append, List.length_singleton]
    omega
  obtain ⟨u, hu⟩ := List.prefix_of_prefix_length_le hfront hlonger hlength
  rw [← hu] at hno
  exact (List.isChain_append.mp hno).1

theorem noPair_of_none {c d : Char} (h : cutAtPair c c s = none) (hs : s = v ++ d :: rest) :
    NoPair c (v ++ [d]) := by
  have hno := cutAtPair_eq_none h
  rw [hs, ← List.singleton_append, ← List.append_assoc] at hno
  exact (List.isChain_append.mp hno).1

theorem readParts_stray (h : cutAtStray s = some (v, rest)) (m : Mark) :
    readParts m none s =
      (Part.consText v (readParts (m.right (v.length + 2)) none rest).1,
        (m.right v.length).diagnose .strayClose 2 ::
          (readParts (m.right (v.length + 2)) none rest).2) := by
  obtain ⟨hcut, hlater⟩ := cutAtPair_of_cutAtStray h
  obtain ⟨hs, hclose⟩ := Node.cutAtPair_eq_some hcut
  have hopen : NoPair '{' (v ++ ['}']) := by
    cases hopening : cutAtPair '{' '{' s with
    | none => exact noPair_of_none hopening hs
    | some w => exact noPair_of_lt hopening hs (hlater w hopening)
  rw [hs, readParts_plain ('}' :: '}' :: rest) hopen hclose, readParts, Mark.right_right]

/-- Up to the opening pair, everything is literal. -/
theorem readParts_opening (hstray : cutAtStray s = none)
    (h : cutAtPair '{' '{' s = some (v, rest)) (m : Mark) :
    readParts m none s =
      (Part.consText v (readParts (m.right (v.length + 2)) (some (m.right v.length, [])) rest).1,
        (readParts (m.right (v.length + 2)) (some (m.right v.length, [])) rest).2) := by
  obtain ⟨hs, hopen⟩ := Node.cutAtPair_eq_some h
  have hclose : NoPair '}' (v ++ ['{']) := by
    cases hclosing : cutAtPair '}' '}' s with
    | none => exact noPair_of_none hclosing hs
    | some w =>
      obtain ⟨w, after⟩ := w
      have hle : v.length ≤ w.length := by
        by_contra hlt
        have hstray' : cutAtStray s = some (w, after) := by
          rw [cutAtStray, hclosing, h]
          simpa using hlt
        rw [hstray] at hstray'
        cases hstray'
      refine noPair_of_lt hclosing hs (hle.lt_of_ne fun heq => ?_)
      have hw := (Node.cutAtPair_eq_some hclosing).1
      rw [hs] at hw
      obtain ⟨-, htail⟩ := List.append_inj hw heq
      cases htail
  rw [hs, readParts_plain ('{' :: '{' :: rest) hopen hclose, readParts, Mark.right_right]

/-- Without a closing pair, what stands behind the opening one is literal. -/
theorem readParts_open (o : Mark) : ∀ (s : Text) (m : Mark) (inner : Text), NoPair '}' s →
    readParts m (some (o, inner)) s =
      (Part.consText ('{' :: '{' :: (inner.reverse ++ s)) [], [o.diagnose .openExpression 1])
  | [], m, inner, _ => by rw [readParts, List.append_nil]
  | [c], m, inner, _ => by
    have hapart : Apart c [] := by simp [Apart]
    rw [readParts_apart_inner hapart, readParts]
    simp
  | c :: d :: s, m, inner, h => by
    have hcd : ¬(c = '}' ∧ d = '}') := (List.isChain_cons_cons.mp h).1
    by_cases hopen : c = '{' ∧ d = '{'
    · obtain ⟨rfl, rfl⟩ := hopen
      rw [readParts, readParts_open o s _ _ h.tail.tail]
      simp
    · have hapart : Apart c (d :: s) := by simp_all [Apart]
      rw [readParts_apart_inner hapart, readParts_open o (d :: s) _ _ h.tail]
      simp

theorem right_closing (m : Mark) (j k : Nat) :
    ((m.right (j + 2)).right k).right 2 = (m.right j).right (k + 4) := by
  simp only [Mark.right_right]
  congr 1
  omega

/-- The reader of a payload, which goes over it once, finds what looking for the next pair again
and again finds. -/
theorem readParts_eq_pieces (m : Mark) (s : Text) :
    readParts m none s = (Part.glue (pieces m s).1, (pieces m s).2) := by
  fun_induction pieces m s with
  | case1 m s v rest hs ps ds hps ih =>
    rw [readParts_stray hs, ih, hps, glue_chunk]
  | case2 m s hs ho =>
    have hc : cutAtPair '}' '}' s = none := by
      by_contra hne
      obtain ⟨cut, hcut⟩ := Option.ne_none_iff_exists'.mp hne
      simp [cutAtStray, ho, hcut] at hs
    have hplain := readParts_plain [] (by simpa [NoPair] using cutAtPair_eq_none ho)
      (by simpa [NoPair] using cutAtPair_eq_none hc) m
    rw [List.append_nil, readParts] at hplain
    rw [hplain, ← List.append_nil (chunk s), glue_chunk, Part.glue]
  | case3 m s hs v rest ho o hc =>
    rw [readParts_opening hs ho, readParts_open _ rest _ _ (cutAtPair_eq_none hc), glue_chunk,
      glue_literal (by simp)]
    rfl
  | case4 m s hs v rest ho o inner after hc length ps ds hps htrim ih =>
    obtain ⟨hrest, hno⟩ := Node.cutAtPair_eq_some hc
    rw [readParts_opening hs ho, hrest, readParts_inner after inner _ _ _ hno, readParts,
      right_closing, ih, hps]
    simp only [List.append_nil, List.reverse_reverse, List.length_reverse, htrim, glue_chunk]
    rfl
  | case5 m s hs v rest ho o inner after hc length ps ds hps htrim ih =>
    obtain ⟨hrest, hno⟩ := Node.cutAtPair_eq_some hc
    rw [readParts_opening hs ho, hrest, readParts_inner after inner _ _ _ hno, readParts,
      right_closing, ih, hps]
    simp only [List.append_nil, List.reverse_reverse, List.length_reverse, glue_chunk]
    rfl

end Pipe

/-! ## Classes -/

namespace Selector

variable {m : Mark} {s t rest : Text}

/-- The characters of a class at the front of a text, if there are any, and what follows them. -/
def word? (s : Text) : Option (Text × Text) :=
  match s.takeWhile isClassChar with
  | [] => none
  | w => some (w, s.dropWhile isClassChar)

/-- The class at the front of a text, perhaps with a `$`, if there is one, and what follows it. -/
def class? : Text → Option (Text × Text)
  | '$' :: s => (word? s).map fun (w, rest) => ('$' :: w, rest)
  | s => word? s

theorem word?_eq_some (h : word? s = some (t, rest)) : s = t ++ rest ∧ t ≠ [] := by
  rw [word?] at h
  split at h
  · cases h
  · next hne =>
    obtain ⟨rfl, rfl⟩ := Prod.mk.inj (Option.some.inj h)
    exact ⟨List.takeWhile_append_dropWhile.symm, hne⟩

theorem class?_eq_some (h : class? s = some (t, rest)) : s = t ++ rest ∧ t ≠ [] := by
  rw [class?.eq_def] at h
  split at h
  · obtain ⟨⟨w, u⟩, hword, hw⟩ := Option.map_eq_some_iff.mp h
    obtain ⟨rfl, rfl⟩ := Prod.mk.inj hw
    exact ⟨congrArg _ (word?_eq_some hword).1, List.cons_ne_nil _ _⟩
  · exact word?_eq_some h

theorem length_of_class? (h : class? s = some (t, rest)) : rest.length < s.length := by
  obtain ⟨rfl, ht⟩ := class?_eq_some h
  have hpos := List.length_pos_iff.mpr ht
  rw [List.length_append]
  omega

/-- The classes at the front of a text, each behind its dot and without a blank, and what follows
them. -/
def classesOf (s : Text) : List Text × Text :=
  match s with
  | '.' :: s =>
    match _h : class? s with
    | none => ([], '.' :: s)
    | some (t, rest) =>
      let (ts, rest) := classesOf rest
      (t :: ts, rest)
  | s => ([], s)
termination_by s.length
decreasing_by
  have hlength := length_of_class? _h
  simp only [List.length_cons]
  omega

/-- What follows a selector: the blanks are passed over, then there is the end, a pipe or a dot with
a class, again and again. -/
def readRest (m : Mark) (s : Text) : Except Diagnostic Tail :=
  let here := m.right (s.takeWhile isBlank).length
  match _hs : s.dropWhile isBlank with
  | [] => .ok ⟨[], none⟩
  | '|' :: rest => .ok ⟨[], some (here, '|' :: rest)⟩
  | '.' :: rest =>
    match _h : class? rest with
    | none => .error ((here.right 1).diagnose .className 1)
    | some (t, rest) =>
      (readRest (here.right (t.length + 1)) rest).map fun tail =>
        { tail with classes := t :: tail.classes }
  | _ :: _ => .error (here.diagnose .elementTail 1)
termination_by s.length
decreasing_by
  have hclass := length_of_class? _h
  have hdrop := congrArg List.length _hs
  have hle := (List.dropWhile_sublist isBlank (l := s)).length_le
  rw [List.length_cons] at hdrop
  omega

/-! ### One class -/

/-- Outside a class nothing is left of one. -/
theorem readTail_between (m : Mark) (s : Text) :
    (readTail m .between s).map (fun r => ([], r.2)) = readTail m .between s := by
  cases s with
  | nil => rfl
  | cons c s =>
    rw [readTail, if_neg (by simp [Place.takes]), if_neg (by simp)]
    split
    · cases readTail (m.right 1) .between s <;> rfl
    · split
      · rfl
      · split
        · cases readTail (m.right 1) .start s <;> rfl
        · rfl

theorem readTail_cons {place : Place} {c : Char} (h : place.takes c s = true) (m : Mark) :
    readTail m place (c :: s) =
      (readTail (m.right 1) .inside s).map fun r => (c :: r.1, r.2) := by
  rw [readTail, if_pos h]
  cases readTail (m.right 1) .inside s <;> rfl

/-- Inside a class the characters of a class are read up to the first other one. -/
theorem readTail_word (m : Mark) (s : Text) :
    readTail m .inside s =
      (readTail (m.right (s.takeWhile isClassChar).length) .between
        (s.dropWhile isClassChar)).map fun r => (s.takeWhile isClassChar, r.2) := by
  induction s generalizing m with
  | nil => rfl
  | cons c s ih =>
    by_cases hc : isClassChar c = true
    · have htakes : Place.takes c s .inside = true := hc
      rw [readTail_cons htakes, ih, List.takeWhile_cons_of_pos hc, List.dropWhile_cons_of_pos hc,
        List.length_cons, Mark.right_right, Nat.add_comm 1]
      cases readTail _ .between (s.dropWhile isClassChar) <;> rfl
    · rw [List.takeWhile_cons_of_neg hc, List.dropWhile_cons_of_neg hc,
        readTail_inside (by simpa using hc)]
      exact (readTail_between m (c :: s)).symm

theorem word?_cons {c : Char} (hc : isClassChar c = true) (s : Text) :
    word? (c :: s) = some (c :: s.takeWhile isClassChar, s.dropWhile isClassChar) := by
  rw [word?, List.takeWhile_cons_of_pos hc, List.dropWhile_cons_of_pos hc]

theorem word?_eq_none (h : s.head?.any isClassChar = false) : word? s = none := by
  rw [word?]
  cases s with
  | nil => rfl
  | cons c s => rw [List.takeWhile_cons_of_neg (by simpa using h)]

/-- Behind a dot there has to be a class. -/
theorem readTail_start (m : Mark) (s : Text) :
    readTail m .start s =
      match class? s with
      | none => .error (m.diagnose .className 1)
      | some (t, rest) => (readTail (m.right t.length) .between rest).map fun r => (t, r.2) := by
  cases s with
  | nil => rfl
  | cons c s =>
    by_cases hc : isClassChar c = true
    · have hclass : class? (c :: s) = word? (c :: s) := by
        rw [class?]
        rintro t ⟨⟩
        exact absurd hc (by decide)
      rw [hclass, word?_cons hc, readTail_cons (by simp [Place.takes, hc]), readTail_word]
      simp only [Mark.right_right, List.length_cons, Nat.add_comm 1]
      cases readTail _ .between (s.dropWhile isClassChar) <;> rfl
    · by_cases hdollar : c = '$'
      · subst hdollar
        rw [class?]
        cases hany : s.head?.any isClassChar with
        | false =>
          rw [word?_eq_none hany, readTail, if_neg (by simpa [Place.takes, hany] using hc)]
          rfl
        | true =>
          obtain ⟨d, u, rfl⟩ : ∃ d u, s = d :: u := by
            cases s with
            | nil => cases hany
            | cons d u => exact ⟨d, u, rfl⟩
          have hd : isClassChar d = true := hany
          rw [word?_cons hd, readTail_cons (by simp [Place.takes, hd]), readTail_word,
            List.takeWhile_cons_of_pos hd, List.dropWhile_cons_of_pos hd]
          simp only [Option.map_some, Mark.right_right, List.length_cons, Nat.add_comm 1]
          cases readTail _ .between (u.dropWhile isClassChar) <;> rfl
      · have hclass : class? (c :: s) = none := by
          rw [class?, word?_eq_none (by simpa using hc)]
          rintro t ⟨⟩
          exact hdollar rfl
        rw [hclass, readTail, if_neg (by simpa [Place.takes, hdollar] using hc), if_pos (by simp)]

/-- Blanks outside a class are passed over. -/
theorem readTail_blanks (m : Mark) (s : Text) :
    readTail m .between s =
      readTail (m.right (s.takeWhile isBlank).length) .between (s.dropWhile isBlank) := by
  induction s generalizing m with
  | nil => rfl
  | cons c s ih =>
    by_cases hc : isBlank c = true
    · rw [readTail, if_neg (by simp [Place.takes]), if_neg (by simp), if_pos hc,
        List.takeWhile_cons_of_pos hc, List.dropWhile_cons_of_pos hc, List.length_cons,
        Nat.add_comm, ← Mark.right_right, ← ih, ← readTail_between]
      cases readTail (m.right 1) .between s <;> rfl
    · rw [List.takeWhile_cons_of_neg hc, List.dropWhile_cons_of_neg hc]
      rfl

theorem readTail_dot (m : Mark) (s : Text) :
    readTail m .between ('.' :: s) = (readTail (m.right 1) .start s).map fun r =>
      ([], { r.2 with classes := r.1 :: r.2.classes }) := by
  rw [readTail, if_neg (by simp [Place.takes]), if_neg (by simp), if_neg (by decide),
    if_neg (by decide), if_pos (by simp)]
  cases readTail (m.right 1) .start s <;> rfl

/-- The reader of what follows a name, which goes over it once, finds what looking for the next
class again and again finds. -/
theorem readTail_eq_readRest (m : Mark) (s : Text) :
    readTail m .between s = (readRest m s).map fun tail => ([], tail) := by
  fun_induction readRest m s with
  | case1 m s hs =>
    rw [readTail_blanks, hs]
    rfl
  | case2 m s here rest hs =>
    rw [readTail_blanks, hs]
    rfl
  | case3 m s here rest hs hclass =>
    rw [readTail_blanks, hs, readTail_dot, readTail_start, hclass]
    rfl
  | case4 m s here rest hs t u hclass ih =>
    rw [Nat.add_comm, ← Mark.right_right] at ih
    rw [readTail_blanks, hs, readTail_dot, readTail_start, hclass]
    dsimp only
    rw [ih, Mark.right_right, Nat.add_comm]
    cases readRest _ u <;> rfl
  | case5 m s here c rest hpipe hdot hs =>
    have hblank : isBlank c = false := by
      have hhead := List.head?_dropWhile_not isBlank s
      rwa [hs] at hhead
    rw [readTail_blanks, hs, readTail, if_neg (by simp [Place.takes]), if_neg (by simp),
      if_neg (by simp [hblank]), if_neg (by simpa using hpipe), if_neg (by simpa using hdot)]
    rfl

/-- A dot with a class, and no blank in front of it. -/
theorem readRest_cons (h : class? s = some (t, rest)) (m : Mark) :
    readRest m ('.' :: s) = (readRest (m.right (t.length + 1)) rest).map fun tail =>
      { tail with classes := t :: tail.classes } := by
  have hdrop : ('.' :: s).dropWhile isBlank = '.' :: s := rfl
  rw [readRest]
  split
  · next hs => cases hdrop.symm.trans hs
  · next hs => cases hdrop.symm.trans hs
  · next hs =>
    obtain ⟨-, rfl⟩ := List.cons.inj (hdrop.symm.trans hs)
    split
    · next hclass => cases h.symm.trans hclass
    · next hclass =>
      obtain ⟨rfl, rfl⟩ := Prod.mk.inj (Option.some.inj (h.symm.trans hclass))
      rfl
  · next hdot hs => exact (hdot (List.cons.inj (hdrop.symm.trans hs)).1.symm).elim

theorem length_classesOf (s : Text) : (classesOf s).2.length ≤ s.length := by
  fun_induction classesOf s with
  | case1 => exact le_rfl
  | case2 s t rest h ts rest' hrest ih =>
    have hlength := length_of_class? h
    rw [hrest] at ih
    simp only [List.length_cons] at ih ⊢
    omega
  | case3 => exact le_rfl

/-- Reading the classes without blanks first, as part of the selector, makes no difference. -/
theorem readRest_classesOf (m : Mark) (s : Text) :
    readRest m s =
      (readRest (m.right (s.length - (classesOf s).2.length)) (classesOf s).2).map fun tail =>
        { tail with classes := (classesOf s).1 ++ tail.classes } := by
  fun_induction classesOf s generalizing m with
  | case1 s h =>
    rw [Nat.sub_self, Mark.right_zero]
    cases readRest m ('.' :: s) <;> rfl
  | case2 s t rest h ts rest' hrest ih =>
    have hs := congrArg List.length (class?_eq_some h).1
    have hle := length_classesOf rest
    rw [hrest] at ih hle
    have hplace : t.length + 1 + (rest.length - rest'.length) =
        ('.' :: s).length - rest'.length := by
      rw [List.length_append] at hs
      rw [List.length_cons]
      dsimp only at hle
      omega
    rw [readRest_cons h, ih, Mark.right_right, hplace]
    cases readRest _ rest' <;> rfl
  | case3 s hs =>
    rw [Nat.sub_self, Mark.right_zero]
    cases readRest m s <;> rfl

/-- What follows a name is read as the classes of the selector and then as what stands behind it. -/
theorem readTail_eq_classesOf (m : Mark) (s : Text) :
    readTail m .between s =
      (readRest (m.right (s.length - (classesOf s).2.length)) (classesOf s).2).map fun tail =>
        ([], { tail with classes := (classesOf s).1 ++ tail.classes }) := by
  rw [readTail_eq_readRest, readRest_classesOf]
  cases readRest _ (classesOf s).2 <;> rfl

end Selector

end Offside
