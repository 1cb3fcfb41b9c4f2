import Offside.Import
import Offside.Proofs.Markup.Content
import Offside.Proofs.Text.Words

/-! The elements of markup are those of the nodes it is lowered to. A reader of markup is only asked
for the nodes that are spelled; which of them are content, and what becomes of names and classes, is
found here. -/
namespace Offside

namespace Markup

open Text

variable {doc s t : Text} {p : Nat} {c : Char} {l : Label} {k : Content} {n : Node}
  {ns : List Node}

/-! ## Places in a text -/

/-- The text stands at a place of another. -/
def StandsAt (s doc : Text) (p : Nat) : Prop := s <+: doc.drop p

theorem StandsAt.slice (h : StandsAt s doc p) : Text.slice doc p (p + s.length) = s := by
  rw [Text.slice, Nat.add_sub_cancel_left]
  exact (List.prefix_iff_eq_take.mp h).symm

theorem StandsAt.left (h : StandsAt (s ++ t) doc p) : StandsAt s doc p :=
  (List.prefix_append s t).trans h

theorem StandsAt.right (h : StandsAt (s ++ t) doc p) : StandsAt t doc (p + s.length) := by
  obtain ⟨after, h⟩ := h
  refine ⟨after, ?_⟩
  rw [← List.drop_drop, ← h]
  simp

theorem StandsAt.tail (h : StandsAt (c :: s) doc p) : StandsAt s doc (p + 1) :=
  StandsAt.right (s := [c]) h

/-! ## Classes -/

/-- A character of a class is written as it is. -/
theorem quoteChar_of_isClassChar (h : Selector.isClassChar c = true) : quoteChar c = [c] := by
  have hne : ∀ d, Selector.isClassChar d = false → (c == d) = false := by
    intro d hd
    rw [beq_eq_false_iff_ne]
    rintro rfl
    rw [hd] at h
    cases h
  have hsmall : ¬ c.toNat < 32 := by
    intro hlt
    have hall : ∀ n < 32, Selector.isClassChar (Char.ofNat n) = false := by decide
    have hc := hall c.toNat hlt
    rw [Char.ofNat_toNat, h] at hc
    cases hc
  simp [quoteChar, hne, hsmall, Selector.isClassChar]

/-- What is in words put together is a space or in a word. -/
theorem mem_intercalate_space {ws : List Text} (hc : c ∈ [' '].intercalate ws) :
    c = ' ' ∨ ∃ w ∈ ws, c ∈ w := by
  induction ws with
  | nil => cases hc
  | cons w ws ih =>
    by_cases hws : ws = []
    · subst hws
      exact Or.inr ⟨w, List.mem_singleton_self w, by simpa [List.intercalate] using hc⟩
    · rw [intercalate_cons_of_ne_nil w hws, List.mem_append, List.mem_cons] at hc
      rcases hc with hc | rfl | hc
      · exact Or.inr ⟨w, List.mem_cons_self, hc⟩
      · exact Or.inl rfl
      · rcases ih hc with h | ⟨v, hv, hcv⟩
        · exact Or.inl h
        · exact Or.inr ⟨v, List.mem_cons_of_mem w hv, hcv⟩

namespace Label

theorem Valid.words (h : l.Valid) : ∀ w ∈ l.classes, w ≠ [] ∧ Solid w := fun w hw =>
  ⟨(h.classes w hw).ne_nil,
    Selector.solid_of_isClass (Ir.Node.isClass_of_plain (h.classes w hw))⟩

/-- Classes need no escapes between quotes. -/
theorem Valid.quote_eq (h : l.Valid) :
    Text.quote ([' '].intercalate l.classes) = '"' :: [' '].intercalate l.classes ++ ['"'] := by
  have hchar : ∀ c ∈ [' '].intercalate l.classes, quoteChar c = [c] := by
    intro c hc
    rcases mem_intercalate_space hc with rfl | ⟨w, hw, hc⟩
    · decide
    · exact quoteChar_of_isClassChar ((h.classes w hw).chars c hc)
  rw [Text.quote, List.flatMap_congr hchar]
  simp

theorem unquote?_quoted (s : Text) : Ir.unquote? ('"' :: s ++ ['"']) = some s := by
  cases s with
  | nil => rfl
  | cons c s =>
    have hcons : c :: (s ++ ['"']) = c :: s ++ ['"'] := rfl
    have hlast : (c :: (s ++ ['"'])).getLast? = some '"' := by rw [hcons, List.getLast?_concat]
    have hinit : (c :: (s ++ ['"'])).dropLast = c :: s := by rw [hcons, List.dropLast_concat]
    simp [Ir.unquote?, hlast, hinit]

theorem Valid.classTokens?_eq (h : l.Valid) (hne : l.classes ≠ []) :
    Ir.classTokens? (Text.quote ([' '].intercalate l.classes)) = some l.classes := by
  have hwords : Text.words ([' '].intercalate l.classes) = l.classes := words_intercalate h.words
  obtain ⟨w, ws, hclasses⟩ := List.exists_cons_of_ne_nil hne
  rw [Ir.classTokens?, h.quote_eq, unquote?_quoted, Option.map_some, hwords, hclasses]

/-- The attribute that lists the classes names itself, and has the quoted classes for its value. -/
theorem lowerTagChild?_className (hs : StandsAt l.className doc p) :
    lowerTagChild? doc (.mk .tagAttribute p (p + l.className.length)
      [.mk .propertyName p (p + 9) [], .mk .string (p + 10) (p + l.className.length) []]) =
        some (.plain (.named ['c', 'l', 'a', 's', 's', 'N', 'a', 'm', 'e']
          (some (Text.quote ([' '].intercalate l.classes))))) := by
  have hkey : StandsAt ['c', 'l', 'a', 's', 's', 'N', 'a', 'm', 'e'] doc p := hs.left.left
  have hvalue : StandsAt (Text.quote ([' '].intercalate l.classes)) doc (p + 10) := hs.right
  have hkeySlice : Text.slice doc p (p + 9) = _ := hkey.slice
  have hvalueSlice := hvalue.slice
  have hlength : p + 10 + (Text.quote ([' '].intercalate l.classes)).length =
      p + l.className.length := by
    rw [className, List.length_append]
    exact Nat.add_assoc _ _ _
  rw [hlength] at hvalueSlice
  simp [lowerTagChild?, lowerAttribute, Node.kind, Node.children, Node.slice, Node.start,
    Node.stop, hkeySlice, hvalueSlice]

/-- The attributes of a tag come to its classes and nothing else. -/
theorem Valid.splitClasses_nodes (h : l.Valid) (hs : StandsAt l.write doc p) :
    Ir.splitClasses (((l.nodes p).filterMap (lowerTagChild? doc)).map Lowered.value) =
      ([], l.classes) := by
  by_cases hclasses : l.classes = []
  · have hattributes : (l.nodes p).filterMap (lowerTagChild? doc) = [] := by
      simp [nodes, hclasses, lowerTagChild?, Node.kind]
    rw [hattributes, hclasses]
    rfl
  · rw [write_of_ne_nil hclasses] at hs
    have hattribute := lowerTagChild?_className hs.right.tail
    have hname : lowerTagChild? doc (.mk .identifier p (p + l.name.length) []) = none := rfl
    simp [nodes, hclasses, hname, hattribute, Lowered.plain, Ir.splitClasses,
      Ir.Attribute.classes?, h.classTokens?_eq hclasses]

/-- The nodes of a tag give its name, its classes, and no attribute. -/
theorem Valid.lowerElement_eq (h : l.Valid) (hs : StandsAt l.write doc p)
    (children : Lowered (List Ir.Node)) :
    (lowerElement doc (l.nodes p) children).value =
      .element l.name l.classes [] children.value := by
  have hname : Text.slice doc p (p + l.name.length) = l.name := StandsAt.slice hs.left
  have hfound : (l.nodes p).find? (·.kind.isTagName) =
      some (.mk .identifier p (p + l.name.length) []) := rfl
  simp only [lowerElement, h.splitClasses_nodes hs, hfound, Option.map_some, Option.getD_some,
    Ir.Node.ofParts, Ir.Node.normalizeClasses_eq h.classes]
  rw [Node.slice, Node.start, Node.stop, hname]

end Label

/-! ## Nodes in a row -/

/-- The elements of a node among others. Text has none, and inside an element its tags have none. -/
def elementsOf (doc : Text) (inside : Bool) (n : Node) : List Ir.Skeleton :=
  if inside && n.kind.isTag || n.kind.isTextual then []
  else Ir.Node.skeletonOf (lowerNode doc n).value

theorem skeletonOf_lowerRun (doc : Text) (run : Option (Nat × Nat)) :
    Ir.Node.skeletonOf (lowerRun doc run) = [] := by
  cases run with
  | none => rfl
  | some place =>
    rw [lowerRun]
    split <;> rfl

/-- Where text comes to stand among nodes does not matter to their elements. -/
theorem skeletonOf_lowerNodes (doc : Text) (inside : Bool) (run : Option (Nat × Nat))
    (ns : List Node) : Ir.Node.skeletonOf (lowerNodes doc inside run ns).value =
      ns.flatMap (elementsOf doc inside) := by
  induction ns generalizing run with
  | nil =>
    rw [lowerNodes]
    exact skeletonOf_lowerRun doc run
  | cons n ns ih =>
    rw [lowerNodes, List.flatMap_cons, elementsOf]
    by_cases htag : (inside && n.kind.isTag) = true
    · simp [htag, ih]
    · by_cases htext : n.kind.isTextual = true
      · simp [htag, htext, ih]
      · simp [htag, htext, ih, skeletonOf_lowerRun]

/-- Text can be left out. -/
theorem flatMap_elementsOf_filter {q : Node → Bool} (h : ∀ n, q n = false → n.kind = .text) :
    (ns.filter q).flatMap (elementsOf doc false) = ns.flatMap (elementsOf doc false) := by
  induction ns with
  | nil => rfl
  | cons n ns ih =>
    cases hq : q n with
    | true => rw [List.filter_cons_of_pos hq, List.flatMap_cons, List.flatMap_cons, ih]
    | false =>
      have hnode : elementsOf doc false n = [] := by
        simp [elementsOf, h n hq, Kind.isTextual]
      rw [List.filter_cons_of_neg (by simp [hq]), List.flatMap_cons, ih, hnode, List.nil_append]

/-- A quoted text is no element, and none is in it. -/
theorem elementsOf_quoted (doc : Text) (inside : Bool) (a b c d : Nat) :
    elementsOf doc inside (.mk .expression a b [.mk .string c d []]) = [] := by
  simp [elementsOf, Node.kind, Kind.isTag, Kind.isTextual, lowerNode, lowerExpression,
    Node.children, Node.hasMarkup, Node.walkList, Node.walk, Kind.isMarkup, Lowered.plain,
    Ir.Node.skeleton]

theorem elementsOf_closed (hl : l.Valid) (hs : StandsAt l.write doc p) (inside : Bool)
    (a b : Nat) :
    elementsOf doc inside (.mk .selfClosing a b (l.nodes p)) = [.mk l.name l.classes []] := by
  simp [elementsOf, Node.kind, Kind.isTag, Kind.isTextual, lowerNode, hl.lowerElement_eq hs,
    Lowered.plain, Ir.Node.skeleton]

/-- A fragment stands for what is in it. -/
theorem elementsOf_fragment (doc : Text) (inside : Bool) (a b c d : Nat) (ns : List Node) :
    elementsOf doc inside (.mk .element a b (.mk .opening c d [] :: ns)) =
      (Node.mk .opening c d [] :: ns).flatMap (elementsOf doc true) := by
  have hfragment : (Node.mk .element a b (.mk .opening c d [] :: ns)).isFragment = true := rfl
  have hlower : (lowerNode doc (.mk .element a b (.mk .opening c d [] :: ns))).value =
      [.fragment (lowerNodes doc true none (.mk .opening c d [] :: ns)).value] := by
    rw [lowerNode, hfragment, if_pos rfl]
  simp only [elementsOf, Node.kind, Kind.isTag, Kind.isTextual, Bool.and_false, Bool.or_self,
    Bool.false_eq_true, if_false, hlower]
  simpa [Ir.Node.skeleton, elementsOf] using skeletonOf_lowerNodes doc true none
    (.mk .opening c d [] :: ns)

/-- The element at a tag has the name and the classes of the tag. -/
theorem elementsOf_element (hl : l.Valid) (hs : StandsAt l.write doc p) (inside : Bool)
    (a b c d : Nat) (ns : List Node) :
    elementsOf doc inside (.mk .element a b (.mk .opening c d (l.nodes p) :: ns)) =
      [.mk l.name l.classes
        ((Node.mk .opening c d (l.nodes p) :: ns).flatMap (elementsOf doc true))] := by
  have hfragment : (Node.mk .element a b (.mk .opening c d (l.nodes p) :: ns)).isFragment =
      false := rfl
  have hopening : (Node.mk .element a b (.mk .opening c d (l.nodes p) :: ns)).opening? =
      some (.mk .opening c d (l.nodes p)) := rfl
  have hlower : (lowerNode doc (.mk .element a b (.mk .opening c d (l.nodes p) :: ns))).value =
      [.element l.name l.classes []
        (lowerNodes doc true none (.mk .opening c d (l.nodes p) :: ns)).value] := by
    rw [lowerNode, hfragment, hopening]
    simp [Node.children, hl.lowerElement_eq hs]
  simp only [elementsOf, Node.kind, Kind.isTag, Kind.isTextual, Bool.and_false, Bool.or_self,
    Bool.false_eq_true, if_false, hlower]
  have hinner := skeletonOf_lowerNodes doc true none (.mk .opening c d (l.nodes p) :: ns)
  simpa [Ir.Node.skeleton, elementsOf] using hinner

namespace Content

/-- No node of a tag is a tag. -/
theorem not_isTag_of_mem (h : n ∈ k.nodes p) : n.kind.isTag = false := by
  induction k generalizing p with
  | nil => cases h
  | text run next ih =>
    rcases List.mem_append.mp h with h | h
    · split at h
      · obtain rfl := List.mem_singleton.mp h
        rfl
      · cases h
    · exact ih h
  | quoted value next ih =>
    rcases List.mem_cons.mp h with rfl | h
    · rfl
    · exact ih h
  | closed l next ih =>
    rcases List.mem_cons.mp h with rfl | h
    · rfl
    · exact ih h
  | element l inner next _ ih =>
    rcases List.mem_cons.mp h with rfl | h
    · rfl
    · exact ih h

/-- The nodes of content have the elements that its tree says, at any depth. -/
theorem elements_nodes (h : k.Valid) (hs : StandsAt k.write doc p) (inside : Bool) :
    (k.nodes p).flatMap (elementsOf doc inside) = k.skeleton := by
  induction k generalizing p inside with
  | nil => rfl
  | text run next ih =>
    rw [nodes, skeleton, List.flatMap_append, ih h.2.2.2 hs.right inside]
    split <;> simp [elementsOf, Node.kind, Kind.isTextual]
  | quoted value next ih =>
    have hnext : StandsAt next.write doc (p + 1 + (Text.quote value).length + 1) := by
      have hlength : p + (Ir.quotedText value).length = p + 1 + (Text.quote value).length + 1 := by
        simp only [Ir.quotedText, List.length_append, List.length_cons, List.length_nil]
        omega
      exact hlength ▸ hs.right
    rw [nodes, skeleton, List.flatMap_cons, elementsOf_quoted, List.nil_append]
    exact ih h hnext inside
  | closed l next ih =>
    obtain ⟨hlabel, hvalid⟩ := h
    have htag : StandsAt (l.write ++ [' ', '/', '>'] ++ next.write) doc (p + 1) := by
      have htail := hs.tail
      simpa using htail
    have hnext : StandsAt next.write doc (p + 1 + l.write.length + 3) := by
      simpa [Nat.add_assoc] using htag.right
    rw [nodes, skeleton, List.flatMap_cons, elementsOf_closed hlabel htag.left.left,
      List.singleton_append]
    exact congrArg _ (ih hvalid hnext inside)
  | element l inner next ihinner ih =>
    obtain ⟨hlabel, hinner, hvalid⟩ := h
    have htag : StandsAt (opening l ++ '>' :: (inner.write ++
        '<' :: '/' :: (closing l ++ '>' :: next.write))) doc (p + 1) := by
      have htail := hs.tail
      simpa using htail
    have hinside := htag.right.tail
    have hnext := hinside.right.tail.tail.right.tail
    have hcontent : ∀ a b c as bs, (Node.mk .opening p a as :: (inner.nodes
        (p + 1 + (opening l).length + 1) ++ [Node.mk .closing b c bs])).flatMap
          (elementsOf doc true) = inner.skeleton := by
      intro a b c as bs
      simp [elementsOf, Node.kind, Kind.isTag, ihinner hinner hinside.left true]
    rw [nodes, List.flatMap_cons, ih hvalid hnext inside]
    simp only [List.cons_append]
    cases l with
    | none =>
      simp only [Option.elim_none]
      rw [elementsOf_fragment, hcontent, skeleton]
    | some l =>
      simp only [Option.elim_some]
      rw [elementsOf_element (hlabel l rfl) htag.left, hcontent, skeleton]
      rfl

/-! ## Selections -/

/-- The program around content, which stands in a fragment that a function returns. -/
def program (k : Content) : Node :=
  let fragment := element none k .nil
  let stop := 28 + fragment.write.length
  .mk .program 0 (stop + 2) [.mk .declarator 6 (stop + 1) [.mk .identifier 6 18 [],
    .mk .arrow 21 (stop + 1) [.mk .group 27 (stop + 1) (fragment.nodes 28)]]]

theorem standsAt_wrap (k : Content) : StandsAt k.write (Selection.wrap k.write) 30 :=
  ⟨Selection.wrapperEnd, rfl⟩

/-- The content of the program is all that shows. -/
theorem content_program (doc : Text) (hname : Text.slice doc 6 18 = Selection.wrapperName) :
    Selection.content doc k.program =
      (k.nodes 30).filter fun n => !(n.kind == .text && (n.slice doc).all isBlank) := by
  have hbody : ∀ stop body, ((Node.mk .program 0 (stop + 1) [.mk .declarator 6 stop
      [.mk .identifier 6 18 [], .mk .arrow 21 stop [body]]]).walk.findSome?
        (Selection.declaredBody? doc Selection.wrapperName)) = some body := by
    intro stop body
    have hdeclared : Selection.declaredBody? doc Selection.wrapperName (.mk .declarator 6 stop
        [.mk .identifier 6 18 [], .mk .arrow 21 stop [body]]) = some body := by
      simp [Selection.declaredBody?, Node.slice, Node.start, Node.stop, hname]
    rw [Node.walk, Node.walkList, Node.walk, List.findSome?_cons_of_isNone rfl, List.cons_append,
      List.findSome?_cons_of_isSome (by rw [hdeclared]; rfl), hdeclared]
  have hcontent : ∀ stop behind, ((Node.mk .element 28 stop (.mk .opening 28 30 [] ::
      k.nodes 30 ++ [.mk .closing behind stop []])).content) = k.nodes 30 := by
    intro stop behind
    have hnodes : (k.nodes 30).filter (fun n => !n.kind.isTag) = k.nodes 30 := by
      rw [List.filter_eq_self]
      intro n hn
      rw [not_isTag_of_mem hn]
      rfl
    rw [Node.content, Node.children, List.cons_append, List.filter_cons_of_neg (by decide),
      List.filter_append, hnodes]
    exact List.append_nil _
  rw [Selection.content, program, hbody]
  simp only [Option.bind_some, Selection.unwrap?, nodes, Selection.unwrapFirst?]
  exact (if_pos rfl).trans (congrArg _ (hcontent _ _))

end Content

/-- The reader gives a selection the tree that markup without expressions prescribes, if it is
such. -/
def Prescribed (read? : Text → Option Node) (selection : Text) : Prop :=
  ∀ k : Content, k.Valid → k.write = selection →
    read? (Selection.wrap selection) = some k.program

variable {read? : Text → Option Node} {a : List Ir.Skeleton}

/-- Markup with an element is imported with the elements that it spells. -/
theorem Spells.importNodesWith (hs : Spells s a) (hread : Prescribed read? s) (ha : a ≠ []) :
    ∃ lowered, importNodesWith read? s = .ok lowered ∧
      Ir.Node.skeletonOf lowered.value = a := by
  obtain ⟨k, hk, rfl, rfl⟩ := hs
  have hname : Text.slice (Selection.wrap k.write) 6 18 = Selection.wrapperName := rfl
  have hcontent := k.content_program (Selection.wrap k.write) hname
  have hskeleton : (Selection.content (Selection.wrap k.write) k.program).flatMap
      (elementsOf (Selection.wrap k.write) false) = k.skeleton := by
    rw [hcontent, flatMap_elementsOf_filter, k.elements_nodes hk k.standsAt_wrap false]
    intro n hn
    simp only [Bool.not_eq_eq_eq_not, Bool.not_false, Bool.and_eq_true, beq_iff_eq] at hn
    exact hn.1
  refine ⟨lower (Selection.wrap k.write) (Selection.content (Selection.wrap k.write) k.program),
    ?_, ?_⟩
  · rw [Offside.importNodesWith, Selection.readWith]
    simp only [hread k hk rfl]
    split
    · next hnil =>
      rw [hnil] at hskeleton
      exact (ha hskeleton.symm).elim
    · rfl
  · rw [lower, skeletonOf_lowerNodes, hskeleton]

end Markup

end Offside
