import Offside.Markup.Program
import Offside.Proofs.Markup.Lowered

/-! Reading tags. A name ends before a blank and before an angle bracket, and the classes of a
`className` hold nothing that would end the quotes around them early. -/
namespace Offside.Markup

open Text

variable {p q r : Nat} {s t u w : Text} {c : Char} {l : Label} {n : Nested}

/-! ## Repeated steps -/

section

variable {σ : Type} {step : σ → Cursor → Option (Step σ)} {state state' : σ} {here next : Cursor}
  {ns ms : List Node} {last : σ × Cursor}

theorem repeatStep_done (h : step state here = some (.done ns state' next)) :
    repeatStep step (r + 1) state here = some (ns, state', next) := by
  rw [repeatStep, h]

theorem repeatStep_more (h : step state here = some (.more ns state' next))
    (hrest : repeatStep step r state' next = some (ms, last)) :
    repeatStep step (r + 1) state here = some (ns ++ ms, last) := by
  rw [repeatStep, h]
  simp only [hrest]

end

/-! ## Names -/

theorem takeWhile_append {f : Char → Bool} (hw : ∀ d ∈ w, f d = true)
    (hs : ∀ d ∈ s.head?, f d = false) : (w ++ s).takeWhile f = w := by
  rw [List.takeWhile_append_of_pos hw]
  cases s with
  | nil => simp
  | cons c s => simp [hs c rfl]

/-- What ends a name of markup. -/
def EndsName (t : Text) : Prop := ∀ c ∈ t.head?, isNamePart c = false ∧ c ≠ '\\' ∧ c ≠ '-'

theorem isNamePart_of_isPlainNamePart (h : isPlainNamePart c = true) : isNamePart c = true := by
  have hsmall : c.toNat < 128 := by
    simp only [isPlainNamePart, Bool.or_eq_true, beq_iff_eq] at h
    rcases h with (h | rfl) | rfl
    · have := toNat_of_isAlphanum h
      omega
    · decide
    · decide
  rw [isPlainNamePart] at h
  rw [isNamePart, if_pos hsmall, h, Bool.true_or]

theorem nameLength_append (hw : ∀ c ∈ w, isNamePart c = true)
    (hs : ∀ c ∈ s.head?, isNamePart c = false ∧ c ≠ '\\') : nameLength 0 (w ++ s) = w.length := by
  induction w with
  | nil =>
    cases s with
    | nil => rfl
    | cons c s =>
      obtain ⟨hc, hne⟩ := hs c rfl
      simp [nameLength, hc, hne]
  | cons c w ih =>
    have hrest := ih fun d hd => hw d (List.mem_cons_of_mem c hd)
    simp [nameLength, hw c List.mem_cons_self, hrest, Nat.add_comm]

theorem readName_append (hw : ∀ d ∈ c :: w, isNamePart d = true) (hdigit : c.isDigit = false)
    (hs : ∀ c ∈ s.head?, isNamePart c = false ∧ c ≠ '\\') :
    readName ⟨p, c :: w ++ s⟩ = some (c :: w, ⟨p + (c :: w).length, s⟩) := by
  have hlength := nameLength_append hw hs
  have hstarts : startsName (c :: w ++ s) = true := by
    rw [startsName, hlength]
    simp [hdigit]
  simp only [readName, hstarts, if_true, hlength, Cursor.skip, List.take_left, List.drop_left]

/-- The word that a name starts with goes up to the first hyphen. -/
theorem exists_word (hw : ∀ d ∈ w, isPlainNamePart d = true ∨ d = '-') :
    ∃ word more, w = word ++ more ∧ (∀ d ∈ word, isPlainNamePart d = true) ∧
      (more = [] ∨ ∃ rest, more = '-' :: rest) := by
  induction w with
  | nil => exact ⟨[], [], rfl, by simp, Or.inl rfl⟩
  | cons d w ih =>
    rcases hw d List.mem_cons_self with hd | rfl
    · obtain ⟨word, more, rfl, hword, hmore⟩ := ih fun e he => hw e (List.mem_cons_of_mem d he)
      exact ⟨d :: word, more, rfl, List.forall_mem_cons.mpr ⟨hd, hword⟩, hmore⟩
    · exact ⟨[], '-' :: w, rfl, by simp, Or.inr ⟨w, rfl⟩⟩

/-- A name is read up to what ends it. The flag tells whether it has a hyphen. -/
theorem readHyphenName_append (hc : isPlainNamePart c = true) (hdigit : c.isDigit = false)
    (hw : ∀ d ∈ w, isPlainNamePart d = true ∨ d = '-') (ht : EndsName t) :
    ∃ hyphens, readHyphenName ⟨p, c :: w ++ t⟩ = some (hyphens, ⟨p + (c :: w).length, t⟩) := by
  obtain ⟨word, more, rfl, hword, hmore⟩ := exists_word hw
  have hplain : ∀ d ∈ c :: word, isPlainNamePart d = true :=
    List.forall_mem_cons.mpr ⟨hc, hword⟩
  have hnames : ∀ d ∈ c :: word, isNamePart d = true := fun d hd =>
    isNamePart_of_isPlainNamePart (hplain d hd)
  rcases hmore with rfl | ⟨rest, rfl⟩
  · have hread := readName_append (p := p) hnames hdigit fun d hd => ⟨(ht d hd).1, (ht d hd).2.1⟩
    refine ⟨false, ?_⟩
    rw [List.append_nil, readHyphenName, hread]
    simp only [Option.bind_eq_bind, Option.bind_some]
    split
    · exact ((ht '-' rfl).2.2 rfl).elim
    · rfl
  · have hread := readName_append (p := p) (s := '-' :: rest ++ t) hnames hdigit
      (by simp [isNamePart])
    have hrest : ∀ d ∈ '-' :: rest, (isPlainNamePart d || d == '-') = true := by
      intro d hd
      rw [Bool.or_eq_true, beq_iff_eq]
      exact hw d (List.mem_append_right word hd)
    have hend : ∀ d ∈ t.head?, (isPlainNamePart d || d == '-') = false := by
      intro d hd
      obtain ⟨hpart, -, hne⟩ := ht d hd
      rw [Bool.or_eq_false_iff, beq_eq_false_iff_ne]
      refine ⟨?_, hne⟩
      by_contra hplain
      rw [isNamePart_of_isPlainNamePart (by simpa using hplain)] at hpart
      cases hpart
    have htake : ('-' :: rest ++ t).takeWhile (fun x => isPlainNamePart x || x == '-') =
        '-' :: rest := takeWhile_append hrest hend
    refine ⟨true, ?_⟩
    have hassoc : c :: (word ++ '-' :: rest) ++ t = c :: word ++ ('-' :: rest ++ t) := by simp
    rw [hassoc, readHyphenName, hread]
    have hall : (c :: word).all isPlainNamePart = true := List.all_eq_true.mpr hplain
    simp only [Option.bind_eq_bind, Option.bind_some, List.cons_append, hall, if_true]
    rw [← List.cons_append, htake, Cursor.skip, List.drop_left]
    simp [Nat.add_assoc, Nat.add_comm 1]

theorem isAlphanum_of_isAlpha (h : c.isAlpha = true) : c.isAlphanum = true := by
  rw [Char.isAlphanum, Bool.or_eq_true]
  exact Or.inl h

theorem ne_of_isAlpha {d : Char} (h : c.isAlpha = true) (hd : d.isAlpha = false) : c ≠ d := by
  rintro rfl
  rw [hd] at h
  cases h

theorem not_isDigit_of_isAlpha (h : c.isAlpha = true) : c.isDigit = false := by
  have hletter : (decide (c.val ≥ 'A'.val ∧ c.val ≤ 'Z'.val) ||
    (c.val ≥ 'a'.val && c.val ≤ 'z'.val)) = true := h
  have hdigit : (c.val ≥ '0'.val && c.val ≤ '9'.val) = false := by
    simp only [Bool.or_eq_true, Bool.and_eq_true, decide_eq_true_eq, Bool.and_eq_false_iff,
      decide_eq_false_iff_not, UInt32.le_iff_toNat_le, ge_iff_le] at hletter ⊢
    simp at hletter ⊢
    omega
  exact hdigit

theorem openGap_of_isAlpha (h : c.isAlpha = true) :
    openGap ⟨p, c :: s⟩ = some ([], ⟨p, c :: s⟩) := by
  have hgap : isGap c = false := by
    have := toNat_of_isAlphanum (isAlphanum_of_isAlpha h)
    simp only [isGap, Bool.or_eq_false_iff, Bool.and_eq_false_iff, decide_eq_false_iff_not,
      beq_eq_false_iff_ne]
    omega
  have hcomment : startsHtmlComment (c :: s) = false := by
    simp [startsHtmlComment, List.isPrefixOf, (ne_of_isAlpha (d := '<') h rfl).symm,
      (ne_of_isAlpha (d := '-') h rfl).symm]
  simp [openGap, readGap, hgap, ne_of_isAlpha (d := '/') h rfl, hcomment]

/-- What follows the name of a tag: the end of the tag, or a space with the end of a closed tag or
an attribute behind it. -/
inductive FollowsName : Text → Prop
  | stop (t : Text) : FollowsName ('>' :: t)
  | close (t : Text) : FollowsName (' ' :: '/' :: '>' :: t)
  | attribute (t : Text) : FollowsName (' ' :: 'c' :: t)

theorem FollowsName.endsName (h : FollowsName t) : EndsName t := by
  cases h <;> simp [EndsName, isNamePart, isGap]

/-- Behind the name there is no sign that could belong to it. -/
theorem FollowsName.expectChar?_eq (h : FollowsName t) (hc : c = ':' ∨ c = '.' ∨ c = '<') :
    (skipOpenGap ⟨p, t⟩).expectChar? c = none := by
  cases h <;> rcases hc with rfl | rfl | rfl <;> rfl

namespace Tag

theorem readMembers_follows (h : FollowsName t) :
    readMembers (r + 1) ⟨p, t⟩ = some ([], ⟨p, t⟩) := by
  simp [readMembers, repeatStep, readMembers.step, h.expectChar?_eq]

theorem readHyphenName_name {name : Text} (hname : IsName name) (ht : EndsName t) :
    ∃ hyphens, readHyphenName ⟨p, name ++ t⟩ = some (hyphens, ⟨p + name.length, t⟩) := by
  obtain ⟨c, w, rfl, hc⟩ := hname.starts
  have hplain : isPlainNamePart c = true := by
    simp [isPlainNamePart, isAlphanum_of_isAlpha hc]
  have hw : ∀ d ∈ w, isPlainNamePart d = true ∨ d = '-' := by
    intro d hd
    have hchar := hname.chars d (List.mem_cons_of_mem c hd)
    rwa [Selector.isNameChar, Bool.or_eq_true, beq_iff_eq] at hchar
  exact readHyphenName_append hplain (not_isDigit_of_isAlpha hc) hw ht

/-- The name of a tag is read as one name. The flag tells whether types could follow it. -/
theorem readTagName_append {name : Text} (hname : IsName name) (ht : FollowsName t) :
    ∃ typed, readTagName (r + 1) ⟨p, name ++ t⟩ =
      some ((typed, .mk .identifier p (p + name.length) []), ⟨p + name.length, t⟩) := by
  obtain ⟨hyphens, hread⟩ := readHyphenName_name (p := p) hname ht.endsName
  have hcolon := ht.expectChar?_eq (p := p + name.length) (Or.inl (Eq.refl ':'))
  cases hyphens with
  | true => exact ⟨false, by simp [readTagName, hread, hcolon, nameNode]⟩
  | false =>
    have hmembers := readMembers_follows (r := r) (p := p + name.length) ht
    exact ⟨true, by simp [readTagName, hread, hcolon, hmembers, nameNode]⟩

/-! ## Classes -/

/-- Text without quotes and ampersands is read up to the quote behind it. -/
theorem readAttributeStringEnd_append (hs : ∀ c ∈ s, c ≠ '"' ∧ c ≠ '&') :
    readAttributeStringEnd '"' p 0 false (s ++ '"' :: t) = some ⟨p + s.length + 1, t⟩ := by
  induction s generalizing p with
  | nil => simp [readAttributeStringEnd]
  | cons c s ih =>
    obtain ⟨hquote, hampersand⟩ := hs c List.mem_cons_self
    have hrest := ih (p := p + 1) fun d hd => hs d (List.mem_cons_of_mem c hd)
    simp [readAttributeStringEnd, hquote, hampersand, hrest, Nat.add_assoc, Nat.add_comm 1]

theorem startsHtmlComment_append (hs : '>' ∉ s) (hc : c ≠ '<' ∧ c ≠ '>') :
    startsHtmlComment (c :: s ++ '"' :: t) = false := by
  have hopen : ['<', '!', '-', '-'].isPrefixOf (c :: s ++ '"' :: t) = false := by
    simp [List.isPrefixOf, hc.1.symm]
  have hclose : ['-', '-', '>'].isPrefixOf (c :: s ++ '"' :: t) = false := by
    rcases s with _ | ⟨d, _ | ⟨e, s⟩⟩
    · simp [List.isPrefixOf]
    · simp [List.isPrefixOf]
    · have he : '>' ≠ e := by
        rintro rfl
        simp at hs
      simp [List.isPrefixOf, he]
  rw [startsHtmlComment, hopen, hclose, Bool.false_or]

/-- Nothing in quoted classes ends the quotes, and nothing in them starts a comment. -/
theorem readAttributeStringEnd_classes (hl : l.Valid) (hne : l.classes ≠ []) :
    readAttributeStringEnd '"' p 0 true ([' '].intercalate l.classes ++ '"' :: t) =
      some ⟨p + ([' '].intercalate l.classes).length + 1, t⟩ := by
  have hchars : ∀ c ∈ [' '].intercalate l.classes,
      c ≠ '"' ∧ c ≠ '&' ∧ c ≠ '<' ∧ c ≠ '>' := by
    intro c hc
    rcases mem_intercalate_space hc with rfl | ⟨w, hw, hc⟩
    · decide
    · have hclass := (hl.classes w hw).chars c hc
      refine ⟨?_, ?_, ?_, ?_⟩ <;> rintro rfl <;> revert hclass <;> decide
  have htrimmed := (spaced_intercalate hl.words hne).toTrimmed
  generalize [' '].intercalate l.classes = s at hchars htrimmed
  obtain ⟨c, s, rfl⟩ := List.exists_cons_of_ne_nil htrimmed.ne_nil
  obtain ⟨hquote, hampersand, hopen, hclose⟩ := hchars c List.mem_cons_self
  have hcomment : htmlCommentLength? (c :: s ++ '"' :: t) = none := by
    have hblank : isBlank c = false := startsSolid_cons.mp htrimmed.starts
    have hnot : startsHtmlComment (c :: s ++ '"' :: t) = false := by
      refine startsHtmlComment_append (fun hs => ?_) ⟨hopen, hclose⟩
      exact (hchars '>' (List.mem_cons_of_mem c hs)).2.2.2 rfl
    have hbody : (c :: s ++ '"' :: t).dropWhile isBlank = c :: s ++ '"' :: t :=
      List.dropWhile_cons_of_neg (by simp [hblank])
    simp only [htmlCommentLength?, hbody, hnot, Bool.false_eq_true, if_false]
  have hrest := readAttributeStringEnd_append (p := p + 1) (t := t) fun d (hd : d ∈ s) =>
    ⟨(hchars d (List.mem_cons_of_mem c hd)).1, (hchars d (List.mem_cons_of_mem c hd)).2.1⟩
  rw [List.cons_append] at hcomment ⊢
  simp [readAttributeStringEnd, hcomment, hquote, hampersand, hrest, Nat.add_assoc, Nat.add_comm 1]

theorem readAttributeName_className (t : Text) :
    readAttributeName ⟨p, 'c' :: 'l' :: 'a' :: 's' :: 's' :: 'N' :: 'a' :: 'm' :: 'e' :: '=' :: t⟩ =
      some (.mk .propertyName p (p + 9) [], ⟨p + 9, '=' :: t⟩) := rfl

/-- The attribute for classes is read as one attribute with a string. -/
theorem readAttribute_className (hl : l.Valid) (hne : l.classes ≠ []) :
    readAttribute n ⟨p, l.className ++ t⟩ =
      some (.mk .tagAttribute p (p + l.className.length) [.mk .propertyName p (p + 9) [],
        .mk .string (p + 10) (p + l.className.length) []], ⟨p + l.className.length, t⟩) := by
  have hstring := readAttributeStringEnd_classes (p := p + 11) (t := t) hl hne
  have hwrite : l.className ++ t = 'c' :: 'l' :: 'a' :: 's' :: 's' :: 'N' :: 'a' :: 'm' :: 'e' ::
      '=' :: '"' :: ([' '].intercalate l.classes ++ '"' :: t) := by
    simp [Label.className, hl.quote_eq]
  have hlength : l.className.length = 11 + ([' '].intercalate l.classes).length + 1 := by
    rw [Label.className, hl.quote_eq]
    simp
    omega
  have hvalue : readValue n ⟨p + 10, '"' :: ([' '].intercalate l.classes ++ '"' :: t)⟩ =
      some (.mk .string (p + 10) (p + l.className.length) [], ⟨p + l.className.length, t⟩) := by
    simp only [readValue, beq_self_eq_true, Bool.true_or, if_true, hstring, hlength,
      ← Nat.add_assoc]
    rfl
  have hgap : ∀ q s, openGap ⟨q, '"' :: s⟩ = some ([], ⟨q, '"' :: s⟩) := fun q s => rfl
  have hequals : ∀ q s, openGap ⟨q, '=' :: s⟩ = some ([], ⟨q, '=' :: s⟩) := fun q s => rfl
  simp [readAttribute, hwrite, readAttributeName_className, hequals, hgap, Cursor.expectChar?,
    hvalue]

/-! ## Whole tags -/

/-- The end of an opening tag: whether the tag closes itself, how long the end is, and what stands
behind it. -/
inductive Ends : Text → Bool → Nat → Text → Prop
  | stop (t : Text) : Ends ('>' :: t) false 1 t
  | close (t : Text) : Ends (' ' :: '/' :: '>' :: t) true 3 t

variable {closed : Bool} {size : Nat}

theorem readAttributes_end (h : Ends s closed size t) :
    repeatStep (readAttributes.step n) (r + 1) false ⟨p, s⟩ =
      some ([], closed, ⟨p + size, t⟩) := by
  cases h <;> rfl

/-- The attribute with the classes is the only one. -/
theorem readAttributes_className (hl : l.Valid) (hne : l.classes ≠ [])
    (h : Ends s closed size t) :
    repeatStep (readAttributes.step n) (r + 2) false ⟨p, ' ' :: l.className ++ s⟩ =
      some ([.mk .tagAttribute (p + 1) (p + 1 + l.className.length)
        [.mk .propertyName (p + 1) (p + 1 + 9) [],
          .mk .string (p + 1 + 10) (p + 1 + l.className.length) []]], closed,
        ⟨p + 1 + l.className.length + size, t⟩) := by
  have hattribute := readAttribute_className (n := n) (p := p + 1) (t := s) hl hne
  have hstep : readAttributes.step n false ⟨p, ' ' :: l.className ++ s⟩ = some (.more
      [.mk .tagAttribute (p + 1) (p + 1 + l.className.length)
        [.mk .propertyName (p + 1) (p + 1 + 9) [],
          .mk .string (p + 1 + 10) (p + 1 + l.className.length) []]] false
        ⟨p + 1 + l.className.length, s⟩) := by
    obtain ⟨w, hw⟩ : ∃ w, l.className ++ s = 'c' :: w := ⟨_, rfl⟩
    have hgap : openGap ⟨p, ' ' :: 'c' :: w⟩ = some ([], ⟨p + 1, 'c' :: w⟩) := rfl
    rw [hw] at hattribute
    rw [List.cons_append, hw]
    simp [readAttributes.step, hgap, hattribute]
  exact repeatStep_more hstep (readAttributes_end h)

theorem Ends.followsName (h : Ends s closed size t) : FollowsName s := by
  cases h with
  | stop t => exact .stop t
  | close t => exact .close t

/-- The name and the classes of a tag are read as its nodes. -/
theorem readTagName_label (hl : l.Valid) (h : Ends s closed size t) :
    ∃ typed rest ms, readTagName (r + 2) ⟨p, l.write ++ s⟩ =
        some ((typed, .mk .identifier p (p + l.name.length) []), ⟨p + l.name.length, rest⟩) ∧
      FollowsName rest ∧ l.nodes p = .mk .identifier p (p + l.name.length) [] :: ms ∧
      repeatStep (readAttributes.step n) (r + 2) false ⟨p + l.name.length, rest⟩ =
        some (ms, closed, ⟨p + l.write.length + size, t⟩) := by
  by_cases hne : l.classes = []
  · obtain ⟨typed, hname⟩ := readTagName_append (r := r + 1) (p := p) hl.name h.followsName
    rw [Label.write_of_nil hne]
    exact ⟨typed, s, [], hname, h.followsName, by simp [Label.nodes, hne], readAttributes_end h⟩
  · have hfollows : FollowsName (' ' :: l.className ++ s) := .attribute _
    obtain ⟨typed, hname⟩ := readTagName_append (r := r + 1) (p := p) hl.name hfollows
    have hread := readAttributes_className (n := n) (r := r) (p := p + l.name.length)
      hl hne h
    have hlength : p + (l.name ++ ' ' :: l.className).length =
        p + l.name.length + 1 + l.className.length := by
      rw [List.length_append, List.length_cons]
      omega
    rw [Label.write_of_ne_nil hne, hlength, List.append_assoc]
    refine ⟨typed, _, _, hname, hfollows, ?_, hread⟩
    simp [Label.nodes, hne]

/-- A tag that opens or closes itself is read whole. -/
theorem read_label (hl : l.Valid) (hsteps : n.steps = r + 2) (h : Ends s closed size t) :
    Tag.read n ⟨p, '<' :: (l.write ++ s)⟩ =
      if closed then
        some (.mk .selfClosing p (p + 1 + l.write.length + size) (l.nodes (p + 1)),
          ⟨p + 1 + l.write.length + size, t⟩)
      else readElementEnd n p (l.nodes (p + 1)) ⟨p + 1 + l.write.length + size, t⟩ := by
  obtain ⟨typed, rest, ms, hname, hfollows, hnodes, hattributes⟩ :=
    readTagName_label (n := n) (r := r) (p := p + 1) hl h
  obtain ⟨c, w, hw, hc⟩ := hl.name.starts
  have hcons : l.write ++ s = c :: (w ++ Ir.writeAttributes l.classes [] ++ s) := by
    simp [Label.write, hw]
  have hgap : openGap ⟨p + 1, l.write ++ s⟩ = some ([], ⟨p + 1, l.write ++ s⟩) := by
    rw [hcons]
    exact openGap_of_isAlpha hc
  have htypes : n.typeArguments (skipOpenGap ⟨p + 1 + l.name.length, rest⟩) = none := by
    simp [Nested.typeArguments, hfollows.expectChar?_eq]
  rw [Tag.read]
  simp only [Cursor.expectChar?, beq_self_eq_true, if_true, Option.bind_eq_bind, Option.bind_some,
    hgap]
  split
  · next heq =>
    rw [hcons] at heq
    obtain ⟨rfl, -⟩ := List.cons.inj heq
    cases hc
  · next heq =>
    rw [hcons] at heq
    obtain ⟨rfl, -⟩ := List.cons.inj heq
    cases hc
  · rw [hsteps, hname]
    simp only [Option.bind_some, htypes, ite_self, readAttributes, hsteps, hattributes]
    rw [hnodes]
    rfl

theorem read_fragment (n : Nested) (p : Nat) (t : Text) :
    Tag.read n ⟨p, '<' :: '>' :: t⟩ = readElementEnd n p [] ⟨p + 2, t⟩ := rfl

/-- A closing tag is read with or without a name. -/
theorem readClosingTag_closing {l : Option Label} (hl : ∀ k ∈ l, k.Valid) (start : Nat) :
    readClosingTag (r + 1) start ⟨p, Content.closing l ++ '>' :: t⟩ =
      some (.mk .closing start (p + (Content.closing l).length + 1)
        (l.elim [] fun l => [.mk .identifier p (p + l.name.length) []]),
        ⟨p + (Content.closing l).length + 1, t⟩) := by
  cases l with
  | none => rfl
  | some l =>
    have hname := (hl l rfl).name
    obtain ⟨typed, hread⟩ := readTagName_append (r := r) (p := p) hname (.stop t)
    obtain ⟨c, w, hw, hc⟩ := hname.starts
    have hgap : openGap ⟨p, l.name ++ '>' :: t⟩ = some ([], ⟨p, l.name ++ '>' :: t⟩) := by
      rw [hw]
      exact openGap_of_isAlpha hc
    have hstop : (⟨p, l.name ++ '>' :: t⟩ : Cursor).expectChar? '>' = none := by
      simp [Cursor.expectChar?, hw, ne_of_isAlpha (d := '>') hc rfl]
    have hend : openGap ⟨p + l.name.length, '>' :: t⟩ =
        some ([], ⟨p + l.name.length, '>' :: t⟩) := rfl
    have hclose : (⟨p + l.name.length, '>' :: t⟩ : Cursor).expectChar? '>' =
        some ⟨p + l.name.length + 1, t⟩ := rfl
    simp [readClosingTag, Content.closing, hgap, hstop, hread, hend, hclose]

end Tag

end Offside.Markup
