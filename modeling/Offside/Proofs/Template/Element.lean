import Offside.Proofs.Diagnostic
import Offside.Proofs.Template.Pipe
import Offside.Template.Element

/-! Element and expression lines. `Selector.Spells` is the grammar of what follows the name of an
element; reading accepts just that, and whatever it accepts is written so that it is read again. -/
namespace Offside

open Text

structure IsName (name : Text) : Prop where
  starts : ∃ c s, name = c :: s ∧ Selector.isNameStart c = true
  chars : ∀ c ∈ name, Selector.isNameChar c = true

/-- A class of an element, perhaps the name of an alias. -/
def IsClass (t : Text) : Prop :=
  ∃ d s, (t = d :: s ∨ t = '$' :: d :: s) ∧ ∀ c ∈ d :: s, Selector.isClassChar c = true

namespace Selector

/-- What may follow the name of an element, with its classes and the pipe with its text. -/
inductive Spells : List Text → Option Text → Text → Prop
  | done : Spells [] none []
  | blank {c : Char} {classes : List Text} {pipe : Option Text} {s : Text} : isBlank c = true →
      Spells classes pipe s → Spells classes pipe (c :: s)
  | pipe {t : Text} : Spells [] (some ('|' :: t)) ('|' :: t)
  | dot {t : Text} {classes : List Text} {pipe : Option Text} {s : Text} : IsClass t →
      Spells classes pipe s → Spells (t :: classes) pipe ('.' :: (t ++ s))

variable {m : Mark} {place : Place} {s t token : Text} {tail : Tail} {classes : List Text}
  {pipe : Option Text} {c : Char} {e : Diagnostic}

theorem isBlank_of_isNameChar (h : isNameChar c = true) : isBlank c = false := by
  simp only [isNameChar, Bool.or_eq_true, beq_iff_eq] at h
  rcases h with ((h | rfl) | rfl) | rfl
  · exact isBlank_of_isAlphanum h
  all_goals decide

theorem isNameChar_of_isClassChar (h : isClassChar c = true) : isNameChar c = true := by
  simp only [isClassChar, Bool.or_eq_true] at h
  simp only [isNameChar, Bool.or_eq_true]
  tauto

theorem isNameChar_of_isNameStart (h : isNameStart c = true) : isNameChar c = true := by
  have hc : c.isAlphanum = true := by
    rw [Char.isAlphanum, Bool.or_eq_true]
    exact Or.inl h
  simp [isNameChar, hc]

theorem isAsciiWord_of_isNameStart (h : isNameStart c = true) : isAsciiWord c = true := by
  have hc : c.isAlpha = true := h
  simp [isAsciiWord, Char.isAlphanum, hc]

/-- Neither a name nor a class can go on where the rest of the line begins. -/
theorem Spells.head (h : Spells classes pipe s) : ∀ c ∈ s.head?, isNameChar c = false := by
  intro d hd
  cases h with
  | done => simp at hd
  | blank hb _ =>
    obtain rfl := Option.some.inj hd
    cases hn : isNameChar _ with
    | false => rfl
    | true => simp [isBlank_of_isNameChar hn] at hb
  | pipe =>
    obtain rfl := Option.some.inj hd
    decide
  | dot _ _ =>
    obtain rfl := Option.some.inj hd
    decide

theorem Spells.not_isClassChar (h : Spells classes pipe s) :
    ∀ c ∈ s.head?, isClassChar c = false := by
  intro c hc
  have hn := h.head c hc
  cases hcl : isClassChar c with
  | false => rfl
  | true => simp [isNameChar_of_isClassChar hcl] at hn

theorem exists_of_isClass (h : IsClass t) (s : Text) : ∃ c token, t = c :: token ∧
    Place.takes c (token ++ s) .start = true ∧ ∀ c ∈ token, isClassChar c = true := by
  obtain ⟨d, token, rfl | rfl, hchars⟩ := h
  · refine ⟨d, token, rfl, ?_, fun c hc => hchars c (List.mem_cons_of_mem d hc)⟩
    simp [Place.takes, hchars d List.mem_cons_self]
  · refine ⟨'$', d :: token, rfl, ?_, hchars⟩
    simp [Place.takes, hchars d List.mem_cons_self]

/-- What the rest of a class token must be, with respect to where its reader stands. -/
def Place.Token : Place → Text → Prop
  | .between, token => token = []
  | .start, token => IsClass token
  | .inside, token => ∀ c ∈ token, isClassChar c = true

/-- A character that a place takes starts a token there. -/
theorem Place.token_cons {rest : Text} (h : place.takes c (token ++ rest) = true)
    (ht : ∀ c ∈ token, isClassChar c = true) (hr : ∀ c ∈ rest.head?, isClassChar c = false) :
    place.Token (c :: token) := by
  cases place with
  | between => simp [Place.takes] at h
  | inside =>
    simp only [Place.takes] at h
    simpa [Place.Token, h] using ht
  | start =>
    simp only [Place.takes, Bool.or_eq_true, Bool.and_eq_true, beq_iff_eq] at h
    rcases h with h | ⟨rfl, h⟩
    · exact ⟨c, token, Or.inl rfl, by simpa [h] using ht⟩
    · cases token with
      | nil =>
        cases rest with
        | nil => simp at h
        | cons d rest => simp [hr d rfl] at h
      | cons d token => exact ⟨d, token, Or.inr rfl, ht⟩

theorem Place.token_nil (h : place ≠ .start) : place.Token [] := by
  cases place with
  | between => rfl
  | start => exact (h rfl).elim
  | inside => simp [Place.Token]

/-- What follows a name is read as the text spells it, up to the pipe. -/
theorem spells_of_readTail (h : readTail m place s = .ok (token, tail)) :
    ∃ rest, s = token ++ rest ∧ place.Token token ∧
      Spells tail.classes (tail.pipe.map Prod.snd) rest ∧ ∀ p ∈ tail.pipe, p.1.line = m.line := by
  fun_induction readTail m place s generalizing token tail with
  | case1 => cases h
  | case2 m place hp =>
    obtain ⟨rfl, rfl⟩ := Prod.mk.inj (Except.ok.inj h)
    exact ⟨[], rfl, Place.token_nil (by simpa using hp), Spells.done, by simp⟩
  | case3 m place c s hc ih =>
    obtain ⟨⟨token', tail'⟩, hr, h⟩ := eq_ok_of_bind h
    obtain ⟨rfl, rfl⟩ := Prod.mk.inj (Except.ok.inj h)
    obtain ⟨rest, rfl, htoken, hsp, hp⟩ := ih hr
    exact ⟨rest, rfl, Place.token_cons hc htoken hsp.not_isClassChar, hsp, hp⟩
  | case4 => cases h
  | case5 m place c s _ hp hb ih =>
    obtain ⟨⟨token', tail'⟩, hr, h⟩ := eq_ok_of_bind h
    obtain ⟨rfl, rfl⟩ := Prod.mk.inj (Except.ok.inj h)
    obtain ⟨rest, rfl, htoken, hsp, hpipe⟩ := ih hr
    obtain rfl : token' = [] := htoken
    exact ⟨c :: rest, rfl, Place.token_nil (by simpa using hp), Spells.blank hb hsp, hpipe⟩
  | case6 m place c s _ hp _ hc =>
    obtain ⟨rfl, rfl⟩ := Prod.mk.inj (Except.ok.inj h)
    obtain rfl := beq_iff_eq.mp hc
    exact ⟨'|' :: s, rfl, Place.token_nil (by simpa using hp), Spells.pipe, by simp⟩
  | case7 m place c s _ hp _ _ hc ih =>
    obtain ⟨⟨token', tail'⟩, hr, h⟩ := eq_ok_of_bind h
    obtain ⟨rfl, rfl⟩ := Prod.mk.inj (Except.ok.inj h)
    obtain ⟨rest, rfl, htoken, hsp, hpipe⟩ := ih hr
    obtain rfl := beq_iff_eq.mp hc
    exact ⟨_, rfl, Place.token_nil (by simpa using hp), Spells.dot htoken hsp, hpipe⟩
  | case8 => cases h

theorem exists_diagnose_right {p : Problem} (hp : p.code = .invalidElement) (k : Nat)
    (h : e = ((m.right 1).right k).diagnose p 1) :
    ∃ k p, Problem.code p = .invalidElement ∧ e = (m.right k).diagnose p 1 :=
  ⟨1 + k, p, hp, by rw [h, Mark.right_right]⟩

/-- What is no class and no pipe is reported as an element that is not in order. -/
theorem exists_diagnose_of_readTail (h : readTail m place s = .error e) :
    ∃ k p, Problem.code p = .invalidElement ∧ e = (m.right k).diagnose p 1 := by
  fun_induction readTail m place s with
  | case1 => exact ⟨0, .className, rfl, (Except.error.inj h).symm⟩
  | case2 => cases h
  | case3 m place c s hc ih =>
    rcases eq_error_of_bind h with h | ⟨_, _, h⟩
    · obtain ⟨k, p, hp, he⟩ := ih h
      exact exists_diagnose_right hp k he
    · cases h
  | case4 => exact ⟨0, .className, rfl, (Except.error.inj h).symm⟩
  | case5 m place c s _ hp hb ih =>
    rcases eq_error_of_bind h with h | ⟨_, _, h⟩
    · obtain ⟨k, p, hp, he⟩ := ih h
      exact exists_diagnose_right hp k he
    · cases h
  | case6 => cases h
  | case7 m place c s _ hp _ _ hc ih =>
    rcases eq_error_of_bind h with h | ⟨_, _, h⟩
    · obtain ⟨k, p, hp, he⟩ := ih h
      exact exists_diagnose_right hp k he
    · cases h
  | case8 => exact ⟨0, .elementTail, rfl, (Except.error.inj h).symm⟩

theorem readTail_inside (hs : ∀ c ∈ s.head?, isClassChar c = false) (m : Mark) :
    readTail m .inside s = readTail m .between s := by
  cases s with
  | nil => rfl
  | cons c s =>
    rw [readTail, readTail]
    simp [Place.takes, hs c rfl]

/-- The characters of a class are taken up to the first that is none. -/
theorem readTail_token (htoken : ∀ c ∈ token, isClassChar c = true)
    (hs : ∀ c ∈ s.head?, isClassChar c = false)
    (hr : ∀ m, ∃ p, readTail m .between s = .ok ([], ⟨classes, p⟩) ∧ p.map Prod.snd = pipe)
    (m : Mark) :
    ∃ p, readTail m .inside (token ++ s) = .ok (token, ⟨classes, p⟩) ∧ p.map Prod.snd = pipe := by
  induction token generalizing m with
  | nil =>
    rw [List.nil_append, readTail_inside hs]
    exact hr m
  | cons c token ih =>
    obtain ⟨p, hp, hsnd⟩ := ih (fun d hd => htoken d (List.mem_cons_of_mem c hd)) (m.right 1)
    have hc : Place.takes c (token ++ s) .inside = true := htoken c List.mem_cons_self
    refine ⟨p, ?_, hsnd⟩
    rw [List.cons_append, readTail, if_pos hc, hp]
    rfl

/-- Just what the grammar allows behind a name is read. -/
theorem readTail_of_spells (h : Spells classes pipe s) (m : Mark) :
    ∃ p, readTail m .between s = .ok ([], ⟨classes, p⟩) ∧ p.map Prod.snd = pipe := by
  induction h generalizing m with
  | done => exact ⟨none, rfl, rfl⟩
  | @blank c classes pipe s hb _ ih =>
    obtain ⟨p, hp, hsnd⟩ := ih (m.right 1)
    refine ⟨p, ?_, hsnd⟩
    rw [readTail, if_neg (by simp [Place.takes]), if_neg (by simp), if_pos hb, hp]
    rfl
  | @pipe t =>
    refine ⟨some (m, '|' :: t), ?_, rfl⟩
    rw [readTail, if_neg (by simp [Place.takes]), if_neg (by simp), if_neg (by decide),
      if_pos (by simp)]
  | @dot t classes pipe s ht hsp ih =>
    obtain ⟨c, token, rfl, htakes, htoken⟩ := exists_of_isClass ht s
    obtain ⟨p, hp, hsnd⟩ := readTail_token htoken hsp.not_isClassChar ih ((m.right 1).right 1)
    refine ⟨p, ?_, hsnd⟩
    rw [readTail, if_neg (by simp [Place.takes]), if_neg (by simp), if_neg (by decide),
      if_neg (by decide), if_pos (by simp), List.cons_append, readTail, if_pos htakes, hp]
    rfl

/-- What is written of a selector spells its classes. -/
theorem spells_write (o : Layout) (name : Text) (hc : ∀ t ∈ classes, IsClass t)
    (h : Spells [] pipe s) :
    ∃ rest, Node.writeSelector o name classes ++ s = name ++ rest ∧ Spells classes pipe rest := by
  refine ⟨_, by rw [Node.writeSelector, List.append_assoc], ?_⟩
  induction classes with
  | nil => exact h
  | cons t classes ih =>
    have ih := ih fun u hu => hc u (List.mem_cons_of_mem t hu)
    have hdot := Spells.dot (hc t List.mem_cons_self) ih
    rw [List.flatMap_cons]
    split
    · simp_all
    · have := Spells.blank (c := ' ') rfl hdot
      simp_all

/-- A class has no blank in it. -/
theorem solid_of_isClass (h : IsClass t) : Solid t := by
  obtain ⟨d, s, ht, hchars⟩ := h
  have hs : Solid (d :: s) := fun c hc =>
    isBlank_of_isNameChar (isNameChar_of_isClassChar (hchars c hc))
  rcases ht with rfl | rfl
  · exact hs
  · intro c hc
    rcases List.mem_cons.mp hc with rfl | hc
    · rfl
    · exact hs c hc

theorem ink_of_spells (h : Spells classes pipe s) :
    ink s = classes.flatMap ('.' :: ·) ++ ink (pipe.getD []) := by
  induction h with
  | done => rfl
  | blank hb _ ih => rw [ink_cons_of_blank hb, ih]
  | pipe => simp
  | dot ht _ ih =>
    rw [ink_cons_of_solid rfl, ink_append, ink_of_solid (solid_of_isClass ht), ih]
    simp

theorem isClass_of_spells (h : Spells classes pipe s) : ∀ t ∈ classes, IsClass t := by
  induction h with
  | done => simp
  | blank _ _ ih => exact ih
  | pipe => simp
  | dot ht _ ih => simpa [ht] using ih

/-- What is spelled with a pipe ends with it. -/
theorem pipe_of_spells (h : Spells classes (some t) s) : ∃ a u, t = '|' :: u ∧ s = a ++ t := by
  generalize hp : some t = p at h
  induction h with
  | done => simp at hp
  | @blank c _ _ s _ _ ih =>
    obtain ⟨a, u, ht, rfl⟩ := ih hp
    exact ⟨c :: a, u, ht, rfl⟩
  | @pipe u =>
    obtain rfl := Option.some.inj hp
    exact ⟨[], u, rfl, rfl⟩
  | @dot v _ _ s _ _ ih =>
    obtain ⟨a, u, ht, rfl⟩ := ih hp
    exact ⟨'.' :: (v ++ a), u, ht, by simp⟩

theorem eq_nil_of_spells (h : Spells [] none s) (hs : EndsSolid s) : s = [] := by
  have hink : ink s = [] := ink_of_spells h
  rw [ink, List.filter_eq_nil_iff] at hink
  cases hl : s.getLast? with
  | none => exact List.getLast?_eq_none_iff.mp hl
  | some c => exact (hink c (List.mem_of_mem_getLast? hl) (by simp [hs c hl])).elim

end Selector

namespace Node

variable {P : List Part → Prop} {m : Mark} {line name : Text} {classes : List Text} {n : Node}
  {ds : List Diagnostic} {e : Diagnostic} {ps : List Part}

theorem solid_of_isName (h : IsName name) : Solid name :=
  fun c hc => Selector.isBlank_of_isNameChar (h.chars c hc)

/-- What an element line says. The text on it, if there is one, is the only child so far. -/
inductive ElementLine (P : List Part → Prop) (m : Mark) (line : Text) :
    Node → List Diagnostic → Prop
  | plain {name : Text} {classes : List Text} {span : Span} : IsName name →
      (∀ t ∈ classes, IsClass t) → span.start.line = m.line → (classes = [] → line = name) →
      ink line = name ++ classes.flatMap ('.' :: ·) →
      ElementLine P m line (.element name classes [] (some span)) []
  | led {name : Text} {classes : List Text} {ps : List Part} {span span' : Span}
      {ds : List Diagnostic} : IsName name → (∀ t ∈ classes, IsClass t) →
      span.start.line = m.line → P ps → (∀ d ∈ ds, d.OnLine m.line) →
      (ds = [] → ink line =
        name ++ classes.flatMap ('.' :: ·) ++ '|' :: ink (Pipe.payload ps)) →
      ElementLine P m line (.element name classes [.text ps .inline (some span')] (some span)) ds

/-- A line is read as an element only if the grammar allows it. -/
theorem spells_of_readElement (h : readElement m line = .ok (n, ds)) :
    ∃ (name : Text) (classes : List Text) (rest : Text) (pipe : Option (Mark × Text)) (span : Span),
      line = name ++ rest ∧ IsName name ∧ Selector.Spells classes (pipe.map Prod.snd) rest ∧
      (∀ p ∈ pipe, p.1.line = m.line) ∧ span.start.line = m.line ∧
      (n, ds) = match pipe with
        | none => (.element name classes [] (some span), [])
        | some (p, t) => (.element name classes [(Pipe.read p .inline t).1] (some span),
            (Pipe.read p .inline t).2) := by
  rw [readElement.eq_def] at h
  split at h
  · next c s =>
    split at h
    · next hc =>
      obtain ⟨name, hname⟩ : ∃ name, name = (c :: s).takeWhile Selector.isNameChar := ⟨_, rfl⟩
      obtain ⟨rest, hrest⟩ : ∃ rest, rest = (c :: s).dropWhile Selector.isNameChar := ⟨_, rfl⟩
      have hline : c :: s = name ++ rest := by
        rw [hname, hrest, List.takeWhile_append_dropWhile]
      have hdrop : (c :: s).drop name.length = rest := by rw [hline, List.drop_left]
      have hn : IsName name := by
        refine ⟨⟨c, s.takeWhile Selector.isNameChar, ?_, hc⟩, ?_⟩
        · rw [hname, List.takeWhile_cons_of_pos (Selector.isNameChar_of_isNameStart hc)]
        · rw [hname]
          exact fun d hd => List.mem_takeWhile_imp hd
      obtain ⟨⟨token, tail⟩, hr, h⟩ := eq_ok_of_bind h
      rw [← hname, hdrop] at hr
      rw [← hname] at h
      dsimp only at h
      obtain ⟨rest', hrest', htoken, hsp, hpipe⟩ := Selector.spells_of_readTail hr
      obtain rfl : token = [] := htoken
      obtain rfl : rest = rest' := hrest'
      refine ⟨name, tail.classes, rest, tail.pipe, m.span (c :: s).length, hline, hn, hsp, hpipe,
        rfl, ?_⟩
      cases htail : tail.pipe with
      | none =>
        rw [htail] at h
        exact (Except.ok.inj h).symm
      | some pt =>
        rw [htail] at h
        exact (Except.ok.inj h).symm
    · cases h
  · cases h

/-- An element line that is read has a name, solid classes and a pipe text that is read. -/
theorem readElement_ok (h : readElement m line = .ok (n, ds)) (hs : EndsSolid line)
    (hl : OneLine line) (hP : Pipe.Yields P ds) : ElementLine P m line n ds := by
  obtain ⟨name, classes, rest, pipe, span, rfl, hn, hsp, hpipe, hspan, hread⟩ :=
    spells_of_readElement h
  have hink := Selector.ink_of_spells hsp
  have hclasses := Selector.isClass_of_spells hsp
  have hinkline : ink (name ++ rest) = name ++ ink rest := by
    rw [ink_append, ink_of_solid (solid_of_isName hn)]
  cases pipe with
  | none =>
    obtain ⟨rfl, rfl⟩ := Prod.mk.inj hread
    refine ElementLine.plain hn hclasses hspan ?_ (by rw [hinkline, hink]; simp)
    rintro rfl
    rw [Selector.eq_nil_of_spells hsp (EndsSolid.of_append hs), List.append_nil]
  | some pt =>
    obtain ⟨p, t⟩ := pt
    obtain ⟨a, u, rfl, hu⟩ := Selector.pipe_of_spells hsp
    have hu' : name ++ rest = (name ++ a ++ ['|']) ++ u := by simp [hu]
    have hs' : EndsSolid u := EndsSolid.of_append (hu' ▸ hs)
    have hl' : OneLine u := hl.subset (by rw [hu']; simp +contextual)
    obtain ⟨ps, es, hread', hes, hyield, hinkp⟩ := Pipe.read_pipe p .inline hs' hl'
    simp only [hread'] at hread
    obtain ⟨rfl, rfl⟩ := Prod.mk.inj hread
    have hline' : p.line = m.line := hpipe (p, '|' :: u) rfl
    refine ElementLine.led hn hclasses hspan (hyield P hP) (hline' ▸ hes) ?_
    intro hnil
    rw [hinkline, hink, Option.map_some, Option.getD_some,
      ink_cons_of_solid (show isBlank '|' = false from rfl), hinkp hnil, List.append_assoc]

theorem exists_diagnose_of_readElement (h : readElement m line = .error e) :
    ∃ k p length, Problem.code p = .invalidElement ∧ e = (m.right k).diagnose p length := by
  rw [readElement.eq_def] at h
  split at h
  · split at h
    · rcases eq_error_of_bind h with h | ⟨⟨token, tail⟩, _, h⟩
      · obtain ⟨k, p, hp, rfl⟩ := Selector.exists_diagnose_of_readTail h
        exact ⟨_, p, 1, hp, by rw [Mark.right_right]⟩
      · dsimp only at h
        split at h <;> cases h
    · exact ⟨0, .elementName, _, rfl, (Except.error.inj h).symm⟩
  · exact ⟨0, .elementName, _, rfl, (Except.error.inj h).symm⟩

theorem readElement_error (h : readElement m line = .error e) : e.OnLine m.line := by
  obtain ⟨k, p, length, -, rfl⟩ := exists_diagnose_of_readElement h
  exact m.diagnose_right_onLine _ _ _

/-- A name with what the grammar allows behind it is read as an element. -/
theorem readElement_of_spells {rest : Text} {pipe : Option Text} (hn : IsName name)
    (h : Selector.Spells classes pipe rest) (m : Mark) :
    ∃ (p : Option (Mark × Text)) (span : Span), p.map Prod.snd = pipe ∧
      span.start.line = m.line ∧ readElement m (name ++ rest) =
        match p with
        | none => .ok (.element name classes [] (some span), [])
        | some (p, t) => .ok (.element name classes [(Pipe.read p .inline t).1] (some span),
            (Pipe.read p .inline t).2) := by
  obtain ⟨c, s, hcs, hc⟩ := hn.starts
  have htake : (name ++ rest).takeWhile Selector.isNameChar = name := by
    rw [List.takeWhile_append_of_pos hn.chars]
    cases hrest : rest with
    | nil => simp
    | cons d rest => simp [h.head d (by simp [hrest])]
  obtain ⟨p, hp, hsnd⟩ := Selector.readTail_of_spells h (m.right name.length)
  refine ⟨p, m.span (name ++ rest).length, hsnd, rfl, ?_⟩
  have hline : name ++ rest = c :: (s ++ rest) := by simp [hcs]
  rw [readElement.eq_def]
  split
  · next d u he =>
    obtain rfl : c = d := by rw [hline] at he; exact (List.cons.inj he).1
    rw [if_pos hc, htake]
    dsimp only
    rw [List.drop_left, hp]
    cases p with
    | none => rfl
    | some p => rfl
  · next he => simp [hline] at he

/-- An element without a text on its line is read as it is written. -/
theorem readElement_write (hn : IsName name) (hc : ∀ t ∈ classes, IsClass t) (o : Layout)
    (m : Mark) : ∃ span : Span, span.start.line = m.line ∧
      readElement m (writeSelector o name classes) =
        .ok (.element name classes [] (some span), []) := by
  obtain ⟨rest, hw, hsp⟩ := Selector.spells_write o name hc Selector.Spells.done
  obtain ⟨p, span, hp, hspan, hr⟩ := readElement_of_spells hn hsp m
  rw [List.append_nil] at hw
  obtain rfl := Option.map_eq_none_iff.mp hp
  exact ⟨span, hspan, by rw [hw, hr]⟩

/-- An element with a text on its line is read as it is written. -/
theorem readElement_write_led (hn : IsName name) (hc : ∀ t ∈ classes, IsClass t)
    (hps : Pipe.Readable ps) (o : Layout) (m : Mark) :
    ∃ (span span' : Span) (qs : List Part), span.start.line = m.line ∧
      qs.map Part.bare = ps.map Part.bare ∧
      readElement m (writeSelector o name classes ++ ' ' :: Pipe.write o.spaceAroundPipe ps) =
        .ok (.element name classes [.text qs .inline (some span')] (some span), []) := by
  obtain ⟨t, ht, _⟩ := Pipe.write_eq o.spaceAroundPipe ps
  have hsp : Selector.Spells [] (some ('|' :: t)) (' ' :: Pipe.write o.spaceAroundPipe ps) := by
    rw [ht]
    exact Selector.Spells.blank rfl Selector.Spells.pipe
  obtain ⟨rest, hw, hsp⟩ := Selector.spells_write o name hc hsp
  obtain ⟨p, span, hp, hspan, hr⟩ := readElement_of_spells hn hsp m
  obtain ⟨⟨p, u⟩, rfl, rfl⟩ := Option.map_eq_some_iff.mp hp
  obtain ⟨qs, span', hread, _, hqs⟩ := Pipe.read_write hps p .inline o.spaceAroundPipe
  refine ⟨span, span', qs, hspan, hqs, ?_⟩
  rw [hw, hr]
  simp only [← ht, hread]

/-! ## Expression lines -/

/-- A text is cut at the first place of the pair. -/
theorem cutAtPair_eq_some {s before after : Text} {a b : Char}
    (h : cutAtPair a b s = some (before, after)) :
    s = before ++ a :: b :: after ∧ (before ++ [a]).IsChain fun x y => ¬(x = a ∧ y = b) := by
  fun_induction cutAtPair a b s generalizing before with
  | case1 x y s hxy =>
    obtain ⟨rfl, rfl⟩ := Prod.mk.inj (Option.some.inj h)
    simp only [Bool.and_eq_true, beq_iff_eq] at hxy
    obtain ⟨rfl, rfl⟩ := hxy
    exact ⟨rfl, List.isChain_singleton x⟩
  | case2 x y s hxy ih =>
    obtain ⟨⟨front, back⟩, hfront, he⟩ := Option.map_eq_some_iff.mp h
    obtain ⟨rfl, rfl⟩ := Prod.mk.inj he
    obtain ⟨hs, hno⟩ := ih hfront
    refine ⟨by rw [List.cons_append, ← hs], ?_⟩
    rw [List.cons_append, List.isChain_cons]
    refine ⟨?_, hno⟩
    have hhead : (front ++ [a]).head? = some y := by
      cases front with
      | nil => exact (congrArg List.head? hs).symm
      | cons d front => exact (congrArg List.head? hs).symm
    intro d hd
    rw [hhead] at hd
    obtain rfl := Option.some.inj hd
    simpa using hxy
  | case3 => cases h

/-- The pair behind a text without it is where the text is cut. -/
theorem cutAtPair_append {a b : Char} : ∀ {before : Text} (after : Text),
    ((before ++ [a]).IsChain fun x y => ¬(x = a ∧ y = b)) →
    cutAtPair a b (before ++ a :: b :: after) = some (before, after)
  | [], after, _ => by simp [cutAtPair]
  | [x], after, h => by
    have hx : ¬(x = a ∧ a = b) := (List.isChain_cons_cons.mp h).1
    rw [List.cons_append, List.nil_append, cutAtPair, if_neg (by simpa using hx)]
    simp [cutAtPair]
  | x :: y :: before, after, h => by
    have hxy : ¬(x = a ∧ y = b) := (List.isChain_cons_cons.mp h).1
    have ih := @cutAtPair_append a b (y :: before) after (List.isChain_cons_cons.mp h).2
    rw [List.cons_append, List.cons_append, cutAtPair, if_neg (by simpa using hxy)]
    rw [List.cons_append] at ih
    rw [ih]
    rfl

/-- How the line of an expression is taken apart. -/
theorem readExpression_eq_ok (h : readExpression m ('{' :: '{' :: line) = .ok n) :
    ∃ inner after, line = inner ++ '}' :: '}' :: after ∧ NoPair '}' inner ∧ trim after = [] ∧
      trim inner ≠ [] ∧
      n = .expression (trim inner) (some (m.span ('{' :: '{' :: line).length)) := by
  rw [readExpression.eq_def] at h
  split at h
  · cases h
  · next inner after hcut =>
    dsimp only at h
    obtain ⟨hline, hno⟩ := cutAtPair_eq_some hcut
    split at h
    · cases h
    · next hafter =>
      split at h
      · cases h
      · next htrim =>
        exact ⟨inner, after, hline, (List.isChain_append.mp hno).1, by simpa using hafter, htrim,
          (Except.ok.inj h).symm⟩

/-- An expression line that is read has one expression, with nothing but blanks beside it. -/
theorem readExpression_ok (h : readExpression m ('{' :: '{' :: line) = .ok n)
    (hl : OneLine line) : ∃ (v : Text) (span : Span), n = .expression v (some span) ∧
      IsExpression v ∧ span.start.line = m.line ∧
      ink ('{' :: '{' :: line) = ['{', '{'] ++ ink v ++ ['}', '}'] := by
  obtain ⟨inner, after, rfl, hno, hafter, htrim, rfl⟩ := readExpression_eq_ok h
  have hin : OneLine inner := hl.subset (by simp +contextual)
  refine ⟨trim inner, _, rfl, ⟨trimmed_trim htrim, Pipe.NoPair.of_trim hno,
    hin.subset (subset_trim inner)⟩, rfl, ?_⟩
  have hink : ink after = [] := by
    rw [← ink_trim, hafter]
    rfl
  have he : '{' :: '{' :: (inner ++ '}' :: '}' :: after) =
      ['{', '{'] ++ inner ++ ['}', '}'] ++ after := by simp
  rw [he]
  simp only [ink_append, ink_trim, hink, List.append_nil]
  rfl

/-- What is wrong with an expression line is reported on its line. -/
theorem readExpression_error (h : readExpression m line = .error e) : e.OnLine m.line := by
  rw [readExpression.eq_def] at h
  split at h
  · obtain rfl := Except.error.inj h
    exact m.diagnose_onLine _ _
  · dsimp only at h
    split at h
    · obtain rfl := Except.error.inj h
      exact m.diagnose_right_onLine _ _ _
    · split at h
      · obtain rfl := Except.error.inj h
        exact m.diagnose_onLine _ _
      · cases h

/-- What is written of an expression is read as it. -/
theorem readExpression_write {v : Text} (hv : IsExpression v) (m : Mark) :
    ∃ span : Span, span.start.line = m.line ∧
      readExpression m (writeExpression v) = .ok (.expression v (some span)) := by
  have hw : writeExpression v = '{' :: '{' :: ([' '] ++ v ++ [' '] ++ '}' :: '}' :: []) := by
    simp [writeExpression, Pipe.writePart]
  refine ⟨m.span (writeExpression v).length, rfl, ?_⟩
  rw [readExpression.eq_def, hw]
  simp only [List.drop_succ_cons, List.drop_zero, cutAtPair_append [] (Pipe.noPair_spaced hv),
    hv.trimmed.trim_between blank_space blank_space]
  rw [if_neg (by simp [trim, trimStart, trimEnd])]
  split
  · exact (hv.trimmed.ne_nil rfl).elim
  · rfl

/-! ## Bodies on the line of a branch -/

/-- The bodies that can stand on the line of their branch. -/
inductive Inlined (P : List Part → Prop) : List Node → Prop
  | text {ps : List Part} {span : Option Span} : P ps → Inlined P [.text ps .inline span]
  | expression {v : Text} {span : Option Span} : IsExpression v → Inlined P [.expression v span]
  | element {name : Text} {classes : List Text} {span : Option Span} : IsName name →
      (∀ t ∈ classes, IsClass t) → Inlined P [.element name classes [] span]
  | led {name : Text} {classes : List Text} {ps : List Part} {span span' : Option Span} :
      IsName name → (∀ t ∈ classes, IsClass t) → P ps →
      Inlined P [.element name classes [.text ps .inline span'] span]

def startLine? : Node → Option Int
  | .element _ _ _ span | .text _ _ span | .expression _ span | .conditional _ span
  | .loop _ _ _ span => span.map (·.start.line)
  | .foreign _ => none

/-- What comes of a body on the line of its branch. -/
structure InlineReading (P : List Part → Prop) (m : Mark) (line : Text)
    (r : Option Node × List Diagnostic) : Prop where
  onLine : ∀ d ∈ r.2, d.OnLine m.line
  inlined : ∀ n ∈ r.1, Inlined P [n] ∧ n.startLine? = some (m.line : Int)
  ink_eq : r.2 = [] → ∀ o, ∃ t, inlineBody? o r.1.toList = some t ∧ ink t = ink line

theorem ink_writeSelector (o : Layout) (name : Text) (classes : List Text) :
    ink (writeSelector o name classes) = ink (name ++ classes.flatMap ('.' :: ·)) := by
  rw [writeSelector, ink_append, ink_append, ink_flatMap, ink_flatMap]
  congr 2
  funext t
  split
  · rfl
  · exact ink_cons_of_blank rfl _

theorem solid_selector (hn : IsName name) (hc : ∀ t ∈ classes, IsClass t) :
    Solid (name ++ classes.flatMap ('.' :: ·)) := by
  intro c hcm
  rcases List.mem_append.mp hcm with hcm | hcm
  · exact solid_of_isName hn c hcm
  · obtain ⟨t, ht, hcm⟩ := List.mem_flatMap.mp hcm
    rcases List.mem_cons.mp hcm with rfl | hcm
    · rfl
    · exact Selector.solid_of_isClass (hc t ht) c hcm

theorem ink_writeExpression (v : Text) :
    ink (writeExpression v) = ['{', '{'] ++ ink v ++ ['}', '}'] := by
  rw [writeExpression, Pipe.writePart]
  simp only [ink_append]
  rfl

/-- What stands on the line of a branch may be an element. -/
theorem inlineReading_element (hs : EndsSolid line) (hl : OneLine line)
    (hP : Pipe.Yields P (reading (readElement m line)).2) :
    InlineReading P m line (reading (readElement m line)) := by
  cases h : readElement m line with
  | error e =>
    rw [reading]
    exact ⟨by simpa using readElement_error h, by simp, by simp⟩
  | ok r =>
    obtain ⟨n, ds⟩ := r
    rw [h] at hP
    cases readElement_ok h hs hl hP with
    | plain hn hc hspan _ hink =>
      refine ⟨by simp [reading], ?_, ?_⟩
      · intro k hk
        obtain rfl := Option.some.inj hk
        exact ⟨Inlined.element hn hc, by simp [startLine?, hspan]⟩
      · intro _ o
        exact ⟨_, rfl, by rw [ink_writeSelector, ink_of_solid (solid_selector hn hc), hink]⟩
    | led hn hc hspan hps hds hink =>
      refine ⟨hds, ?_, ?_⟩
      · intro k hk
        obtain rfl := Option.some.inj hk
        exact ⟨Inlined.led hn hc hps, by simp [startLine?, hspan]⟩
      · intro hnil o
        refine ⟨_, rfl, ?_⟩
        rw [ink_append, ink_writeSelector, ink_of_solid (solid_selector hn hc),
          ink_cons_of_blank rfl, Pipe.ink_write, hink hnil]

/-- What stands on the line of a branch may be an expression. -/
theorem inlineReading_expression (hl : OneLine line) :
    InlineReading P m ('{' :: '{' :: line)
      (reading ((readExpression m ('{' :: '{' :: line)).map (·, []))) := by
  cases h : readExpression m ('{' :: '{' :: line) with
  | error e =>
    have he := readExpression_error h
    exact ⟨by simpa [reading, Except.map] using he, by simp [reading, Except.map],
      by simp [reading, Except.map]⟩
  | ok n =>
    obtain ⟨v, span, rfl, hv, hspan, hink⟩ := readExpression_ok h hl
    refine ⟨by simp [reading, Except.map], ?_, ?_⟩
    · intro k hk
      obtain rfl := Option.some.inj hk
      exact ⟨Inlined.expression hv, by simp [startLine?, hspan]⟩
    · intro _ o
      exact ⟨_, rfl, by rw [ink_writeExpression, hink]⟩

/-- Whatever stands on the line of a branch is read as a text, an expression or an element. -/
theorem readInline_spec (hs : EndsSolid line) (hl : OneLine line)
    (hP : Pipe.Yields P (readInline m line).2) : InlineReading P m line (readInline m line) := by
  rw [readInline.eq_def] at hP ⊢
  split
  · next t =>
    have hs' : EndsSolid t := hs.tail
    have hl' : OneLine t := hl.subset fun c hc => List.mem_cons_of_mem _ hc
    obtain ⟨ps, ds, hread, hds, hyield, hink⟩ := Pipe.read_pipe m .inline hs' hl'
    simp only [hread] at hP ⊢
    refine ⟨hds, ?_, ?_⟩
    · intro k hk
      obtain rfl := Option.some.inj hk
      exact ⟨Inlined.text (hyield P hP), rfl⟩
    · intro hnil o
      exact ⟨_, rfl, by rw [Pipe.ink_write, hink hnil, ink_cons_of_solid rfl]⟩
  · exact inlineReading_expression (hl.subset (by simp +contextual))
  · exact ⟨by simpa using m.diagnose_onLine _ _, by simp, by simp⟩
  · simp only at hP
    exact inlineReading_element hs hl hP

/-- A written selector has no blanks at its ends. -/
theorem trimmed_writeSelector (hn : IsName name) (hc : ∀ t ∈ classes, IsClass t) (o : Layout) :
    StartsSolid (writeSelector o name classes) ∧ EndsSolid (writeSelector o name classes) := by
  obtain ⟨c, s, hcs, -⟩ := hn.starts
  have hne : name ≠ [] := by simp [hcs]
  refine ⟨(solid_of_isName hn).startsSolid.append hne, ?_⟩
  rw [writeSelector]
  cases hcl : classes.getLast? with
  | none =>
    rw [List.getLast?_eq_none_iff.mp hcl, List.flatMap_nil, List.append_nil]
    exact (solid_of_isName hn).endsSolid
  | some t =>
    obtain ⟨front, rfl⟩ := List.getLast?_eq_some_iff.mp hcl
    have ht : IsClass t := hc t (by simp)
    obtain ⟨d, token, ht', -⟩ := id ht
    have htne : t ≠ [] := by rcases ht' with rfl | rfl <;> simp
    rw [List.flatMap_append, ← List.append_assoc, List.flatMap_singleton, ← List.append_assoc]
    exact (Selector.solid_of_isClass ht).endsSolid.append htne

theorem oneLine_writeSelector (hn : IsName name) (hc : ∀ t ∈ classes, IsClass t) (o : Layout) :
    OneLine (writeSelector o name classes) := by
  refine (solid_of_isName hn).oneLine.append ?_
  intro d hd
  obtain ⟨t, ht, hd⟩ := List.mem_flatMap.mp hd
  refine OneLine.append ?_ (Selector.solid_of_isClass (hc t ht)).oneLine d hd
  split <;> simp [OneLine]

theorem writeSelector_eq_cons (hn : IsName name) (o : Layout) (classes : List Text) :
    ∃ c s, writeSelector o name classes = c :: s ∧ Selector.isNameStart c = true := by
  obtain ⟨c, s, rfl, hc⟩ := hn.starts
  exact ⟨c, _, rfl, hc⟩

/-- A name on the line of a branch starts an element. -/
theorem readInline_of_isNameStart {c : Char} (hc : Selector.isNameStart c = true) (m : Mark)
    (s : Text) : readInline m (c :: s) = reading (readElement m (c :: s)) := by
  rw [readInline.eq_def]
  split
  · next he =>
    obtain ⟨rfl, -⟩ := List.cons.inj he
    cases hc
  · next he =>
    obtain ⟨rfl, -⟩ := List.cons.inj he
    cases hc
  · next he =>
    obtain ⟨rfl, -⟩ := List.cons.inj he
    cases hc
  · rfl

theorem oneLine_writeExpression {v : Text} (hv : IsExpression v) : OneLine (writeExpression v) := by
  refine OneLine.append (OneLine.append ?_ hv.oneLine) ?_ <;> simp [OneLine]

theorem trimmed_writeExpression (v : Text) : Trimmed (writeExpression v) := by
  have he : writeExpression v = ['{', '{', ' '] ++ v ++ [' ', '}'] ++ ['}'] := by
    simp [writeExpression, Pipe.writePart]
  rw [he]
  exact ⟨by simp, startsSolid_cons.mpr rfl, endsSolid_concat.mpr rfl⟩

theorem trimmed_write {ps : List Part} (h : Pipe.Readable ps) (spaced : Bool) :
    Trimmed (Pipe.write spaced ps) := by
  obtain ⟨t, ht, -⟩ := Pipe.write_eq spaced ps
  have hs := Pipe.endsSolid_write h spaced
  rw [ht] at hs ⊢
  exact ⟨by simp, startsSolid_cons.mpr rfl, hs⟩

/-- A body is read from the line of its branch as it is written there. -/
theorem readInline_write {ns : List Node} (h : Inlined Pipe.Readable ns) (o : Layout) (m : Mark) :
    ∃ t k, inlineBody? o ns = some t ∧ Trimmed t ∧ OneLine t ∧
      readInline m t = (some k, []) ∧ [k.bare] = bareList ns := by
  cases h with
  | @text ps span hps =>
    obtain ⟨qs, span', hread, -, hqs⟩ := Pipe.read_write hps m .inline o.spaceAroundPipe
    obtain ⟨t, ht, -⟩ := Pipe.write_eq o.spaceAroundPipe ps
    refine ⟨_, .text qs .inline (some span'), rfl, trimmed_write hps _, Pipe.oneLine_write hps _,
      ?_, ?_⟩
    · rw [ht] at hread ⊢
      simp only [readInline, hread]
    · simp [bare, bareList, hqs]
  | @expression v span hv =>
    obtain ⟨span', -, hread⟩ := readExpression_write hv m
    refine ⟨_, .expression v (some span'), rfl, trimmed_writeExpression v,
      oneLine_writeExpression hv, ?_, ?_⟩
    · have he : writeExpression v = '{' :: '{' :: (' ' :: v ++ [' ', '}', '}']) := rfl
      rw [he] at hread ⊢
      simp only [readInline, hread]
      rfl
    · simp [bare, bareList]
  | @element name classes span hn hc =>
    obtain ⟨span', -, hread⟩ := readElement_write hn hc o m
    obtain ⟨c, s, hcs, hstart⟩ := writeSelector_eq_cons hn o classes
    have hends := trimmed_writeSelector hn hc o
    refine ⟨_, .element name classes [] (some span'), rfl, ⟨by simp [hcs], hends.1, hends.2⟩,
      oneLine_writeSelector hn hc o, ?_, ?_⟩
    · rw [hcs] at hread ⊢
      rw [readInline_of_isNameStart hstart, hread, reading]
    · simp [bare, bareList]
  | @led name classes ps span span' hn hc hps =>
    obtain ⟨span₁, span₂, qs, -, hqs, hread⟩ := readElement_write_led hn hc hps o m
    obtain ⟨c, s, hcs, hstart⟩ := writeSelector_eq_cons hn o classes
    have hends := trimmed_writeSelector hn hc o
    have hpipe := trimmed_write hps o.spaceAroundPipe
    have hspace : OneLine [' '] := by simp [OneLine]
    refine ⟨_, .element name classes [.text qs .inline (some span₂)] (some span₁), rfl,
      ⟨by simp, ?_, ?_⟩, ?_, ?_, ?_⟩
    · exact hends.1.append (by simp [hcs])
    · rw [← List.singleton_append, ← List.append_assoc]
      exact hpipe.ends.append hpipe.ne_nil
    · exact (oneLine_writeSelector hn hc o).append (hspace.append (Pipe.oneLine_write hps _))
    · rw [hcs] at hread ⊢
      rw [List.cons_append] at hread ⊢
      rw [readInline_of_isNameStart hstart, hread, reading]
    · simp [bare, bareList, hqs]

end Node

end Offside
