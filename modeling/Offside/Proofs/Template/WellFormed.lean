import Offside.Proofs.Template.Sound

/-! What is read is well formed at every depth, whatever is reported on the way. Each line adds a
well-formed entry, and a tree stays well formed while it grows at its open edge. -/
namespace Offside

open Text

namespace Part

def isLiteral : Part → Bool
  | literal _ => true
  | expression _ _ => false

def value : Part → Text
  | literal v | expression v _ => v

end Part

namespace Pipe

variable {ps : List Part} {v : Text} {c : Char}

/-- No literal is empty, no two literals are neighbours, and no expression is blank, has blanks
around it or could end early. -/
structure Merged (ps : List Part) : Prop where
  literals : ∀ v, .literal v ∈ ps → v ≠ []
  apart : ps.IsChain fun p q => ¬(p.isLiteral = true ∧ q.isLiteral = true)
  expressions : ∀ v span, .expression v span ∈ ps → Trimmed v ∧ NoPair '}' v

/-- The parts are merged and have no line ends and no tabs in them. -/
def Settled (ps : List Part) : Prop := Merged ps ∧ ∀ p ∈ ps, OneLine p.value

theorem settled_nil : Settled [] :=
  ⟨⟨by simp, List.IsChain.nil, by simp⟩, by simp⟩

/-- An expression in front of settled parts keeps them settled. -/
theorem settled_expression {span : Option Span} (hv : Trimmed v) (hno : NoPair '}' v)
    (hl : OneLine v) (h : Settled ps) : Settled (.expression v span :: ps) := by
  obtain ⟨⟨hliterals, hapart, hexpressions⟩, hlines⟩ := h
  refine ⟨⟨?_, ?_, ?_⟩, ?_⟩
  · intro w hw
    exact hliterals w (by simpa using hw)
  · apply List.isChain_cons.mpr
    exact ⟨by simp [Part.isLiteral], hapart⟩
  · intro w span' hw
    rcases List.mem_cons.mp hw with he | hw
    · rw [(Part.expression.inj he).1]
      exact ⟨hv, hno⟩
    · exact hexpressions w span' hw
  · intro p hp
    rcases List.mem_cons.mp hp with rfl | hp
    · exact hl
    · exact hlines p hp

/-- A literal goes where no other literal follows. -/
theorem settled_literal (hv : v ≠ []) (hl : OneLine v) (h : Settled ps)
    (hhead : ∀ p ∈ ps.head?, p.isLiteral = false) : Settled (.literal v :: ps) := by
  obtain ⟨⟨hliterals, hapart, hexpressions⟩, hlines⟩ := h
  refine ⟨⟨?_, ?_, ?_⟩, ?_⟩
  · intro w hw
    rcases List.mem_cons.mp hw with he | hw
    · rw [Part.literal.inj he]
      exact hv
    · exact hliterals w hw
  · apply List.isChain_cons.mpr
    refine ⟨?_, hapart⟩
    intro p hp hboth
    simp [hhead p hp] at hboth
  · intro w span hw
    exact hexpressions w span (by simpa using hw)
  · intro p hp
    rcases List.mem_cons.mp hp with rfl | hp
    · exact hl
    · exact hlines p hp

theorem Settled.tail {p : Part} (h : Settled (p :: ps)) :
    Settled ps ∧ ∀ q ∈ ps.head?, ¬(p.isLiteral = true ∧ q.isLiteral = true) := by
  obtain ⟨⟨hliterals, hapart, hexpressions⟩, hlines⟩ := h
  obtain ⟨hhead, htail⟩ := List.isChain_cons.mp hapart
  refine ⟨⟨⟨?_, htail, ?_⟩, ?_⟩, hhead⟩
  · intro w hw
    exact hliterals w (List.mem_cons_of_mem p hw)
  · intro w span hw
    exact hexpressions w span (List.mem_cons_of_mem p hw)
  · intro q hq
    exact hlines q (List.mem_cons_of_mem p hq)

/-- A character in front of settled parts keeps them settled. -/
theorem settled_consChar (hc : OneLine [c]) (h : Settled ps) : Settled (Part.consChar c ps) := by
  cases ps with
  | nil => exact settled_literal (by simp) hc h (by simp)
  | cons p ps =>
    cases p with
    | literal v =>
      obtain ⟨htail, hhead⟩ := h.tail
      have hv : OneLine v := h.2 (.literal v) List.mem_cons_self
      refine settled_literal (by simp) (hc.append hv) htail ?_
      intro q hq
      have := hhead q hq
      simpa [Part.isLiteral] using this
    | expression v span => exact settled_literal (by simp) hc h (by simp [Part.isLiteral])

/-- With or without reports, the parts that are read are settled. An expression that is still open
has had no closing pair so far. -/
theorem settled_readParts (m : Mark) (opened : Option (Mark × Text)) (s : Text) (hl : OneLine s)
    (ho : ∀ o inner, opened = some (o, inner) →
      NoPair '}' (inner.reverse ++ s.head?.toList) ∧ OneLine inner) :
    Settled (readParts m opened s).1 := by
  fun_induction readParts m opened s with
  | case1 m s ps ds hps ih =>
    rw [hps] at ih
    exact ih (hl.subset (by simp +contextual)) (by simp)
  | case2 m s ps ds hps o inner _ _ ih =>
    rw [hps] at ih
    exact ih (hl.subset (by simp +contextual)) (by simp)
  | case3 m s ps ds hps o inner _ htrim ih =>
    rw [hps] at ih
    have hps' := ih (hl.subset (by simp +contextual)) (by simp)
    obtain ⟨hno, hinner⟩ := ho o inner rfl
    have hno' : NoPair '}' inner.reverse := (List.isChain_append.mp hno).1
    have hl' : OneLine inner.reverse := hinner.subset (by simp)
    apply settled_expression (trimmed_trim htrim) (NoPair.of_trim hno') _ hps'
    exact hl'.subset (subset_trim _)
  | case4 m s ih =>
    apply ih (hl.subset (by simp +contextual))
    rintro o inner ⟨⟩
    refine ⟨?_, by simp [OneLine]⟩
    cases s <;> simp [NoPair]
  | case5 m s o inner ih =>
    obtain ⟨hno, hinner⟩ := ho o inner rfl
    apply ih (hl.subset (by simp +contextual))
    rintro o' inner' ⟨⟩
    refine ⟨noPair_open (by simpa using hno), ?_⟩
    exact OneLine.append (s := ['{', '{']) (by simp [OneLine]) hinner
  | case6 m c s _ _ ps ds hps ih =>
    rw [hps] at ih
    exact settled_consChar (hl.subset (by simp)) (ih (hl.subset (by simp +contextual)) (by simp))
  | case7 m c s hclose hopen o inner ih =>
    obtain ⟨hno, hinner⟩ := ho o inner rfl
    apply ih (hl.subset (by simp +contextual))
    rintro o' inner' ⟨⟩
    refine ⟨noPair_push (apart_iff.mpr ⟨hclose, hopen⟩) (by simpa using hno), ?_⟩
    exact OneLine.append (s := [c]) (hl.subset (by simp)) hinner
  | case8 m => exact settled_nil
  | case9 m o inner =>
    obtain ⟨-, hinner⟩ := ho o inner rfl
    rw [consText_nil (by simp)]
    refine settled_literal (by simp) ?_ settled_nil (by simp)
    exact OneLine.append (s := ['{', '{']) (by simp [OneLine]) (hinner.subset (by simp))

/-- Whatever is reported, what is read is settled. -/
theorem yields_settled (ds : List Diagnostic) : Yields Settled ds :=
  fun m s _ hl _ => settled_readParts m none s hl (by simp)

end Pipe

/-! ## Trees -/

namespace Node

/-- Whether the node is a text on the line of another node. -/
def isInline : Node → Bool
  | .text _ .inline _ => true
  | _ => false

/-- The node is well formed, and so is every node in it. -/
inductive WellFormed : Node → Prop
  | element {name : Text} {classes : List Text} {children : List Node} {span : Option Span} :
      IsName name → (∀ t ∈ classes, IsClass t) → (∀ n ∈ children.tail, n.isInline = false) →
      (∀ n ∈ children, WellFormed n) → WellFormed (.element name classes children span)
  | text {ps : List Part} {placement : Placement} {span : Option Span} : Pipe.Merged ps →
      WellFormed (.text ps placement span)
  | expression {v : Text} {span : Option Span} : Trimmed v → NoPair '}' v →
      WellFormed (.expression v span)
  | conditional {branches : List (Branch Node)} {span : Option Span} : branches ≠ [] →
      (∀ b ∈ branches, ∀ t ∈ b.test, Trimmed t) → (∀ b ∈ branches.head?, b.test ≠ none) →
      (∀ b ∈ branches.dropLast, b.test ≠ none) →
      (∀ b ∈ branches, ∀ n ∈ b.body, n.isInline = true → b.body = [n]) →
      (∀ b ∈ branches, ∀ n ∈ b.body, WellFormed n) → WellFormed (.conditional branches span)
  | loop {v i : Text} {body : List Node} {span : Option Span} :
      (∀ n ∈ body, n.isInline = false) → (∀ n ∈ body, WellFormed n) →
      WellFormed (.loop v i body span)

mutual

/-- All texts in a node: names, classes, tests, values and literals. -/
def texts : Node → List Text
  | .element name classes children _ => name :: classes ++ textsIn children
  | .text ps _ _ => ps.map Part.value
  | .expression v _ => [v]
  | .conditional branches _ => textsOf branches
  | .loop v i body _ => v :: i :: textsIn body
  | .foreign label => label.toList

def textsIn : List Node → List Text
  | [] => []
  | n :: ns => n.texts ++ textsIn ns

def textsOf : List (Branch Node) → List Text
  | [] => []
  | b :: bs => textsAt b ++ textsOf bs

def textsAt : Branch Node → List Text
  | ⟨test, body, _⟩ => test.toList ++ textsIn body

end

variable {P : List Part → Prop} {n : Node} {ns body : List Node} {bs : List (Branch Node)}
  {t : Text}

theorem mem_textsIn : t ∈ textsIn ns ↔ ∃ n ∈ ns, t ∈ n.texts := by
  induction ns with
  | nil => simp [textsIn]
  | cons n ns ih => simp [textsIn, ih]

theorem mem_textsOf : t ∈ textsOf bs ↔ ∃ b ∈ bs, t ∈ b.test ∨ ∃ n ∈ b.body, t ∈ n.texts := by
  induction bs with
  | nil => simp [textsOf]
  | cons b bs ih =>
    obtain ⟨test, body, span⟩ := b
    simp [textsOf, textsAt, ih, mem_textsIn, or_assoc]

theorem isInline_of_stands (h : n.Stands P) : n.isInline = false := by
  cases h <;> rfl

theorem oneLine_of_selector {name : Text} {classes : List Text} (hname : IsName name)
    (hclasses : ∀ t ∈ classes, IsClass t) : ∀ t ∈ name :: classes, OneLine t := by
  intro t ht
  rcases List.mem_cons.mp ht with rfl | ht
  · exact (solid_of_isName hname).oneLine
  · exact (Selector.solid_of_isClass (hclasses t ht)).oneLine

theorem oneLine_of_settled {ps : List Part} (h : Pipe.Settled ps) :
    ∀ t ∈ ps.map Part.value, OneLine t := by
  intro t ht
  obtain ⟨p, hp, rfl⟩ := List.mem_map.mp ht
  exact h.2 p hp

/-- A body on the line of its branch. -/
theorem wellFormed_of_inlined (h : Inlined Pipe.Settled body) : ∀ n ∈ body,
    n.WellFormed ∧ body = [n] ∧ ∀ t ∈ n.texts, OneLine t := by
  cases h with
  | text hps =>
    intro n hn
    obtain rfl := List.mem_singleton.mp hn
    exact ⟨WellFormed.text hps.1, rfl, oneLine_of_settled hps⟩
  | expression hv =>
    intro n hn
    obtain rfl := List.mem_singleton.mp hn
    refine ⟨WellFormed.expression hv.trimmed hv.noClose, rfl, fun t ht => ?_⟩
    obtain rfl := List.mem_singleton.mp ht
    exact hv.oneLine
  | element hname hclasses =>
    intro n hn
    obtain rfl := List.mem_singleton.mp hn
    refine ⟨WellFormed.element hname hclasses (by simp) (by simp), rfl, fun t ht => ?_⟩
    rw [texts, textsIn, List.append_nil] at ht
    exact oneLine_of_selector hname hclasses t ht
  | led hname hclasses hps =>
    intro n hn
    obtain rfl := List.mem_singleton.mp hn
    refine ⟨WellFormed.element hname hclasses (by simp) ?_, rfl, fun t ht => ?_⟩
    · intro k hk
      obtain rfl := List.mem_singleton.mp hk
      exact WellFormed.text hps.1
    · rw [texts, textsIn, textsIn, List.append_nil, texts] at ht
      rcases List.mem_append.mp ht with ht | ht
      · exact oneLine_of_selector hname hclasses t ht
      · exact oneLine_of_settled hps t ht

/-- A node that stands with settled parts is well-formed. -/
theorem wellFormed_of_stands (h : n.Stands Pipe.Settled) : n.WellFormed := by
  induction h with
  | element hsel hchildren ih =>
    refine WellFormed.element hsel.isName hsel.areClasses ?_ ih
    intro n hn
    exact isInline_of_stands (hchildren n (List.mem_of_mem_tail hn))
  | led hname hclasses hps hrest ih =>
    refine WellFormed.element hname hclasses ?_ ?_
    · intro n hn
      exact isInline_of_stands (hrest n hn)
    · intro n hn
      rcases List.mem_cons.mp hn with rfl | hn
      · exact WellFormed.text hps.1
      · exact ih n hn
  | text hps => exact WellFormed.text hps.1
  | expression hv => exact WellFormed.expression hv.trimmed hv.noClose
  | conditional hne htests hfirst hlast hbodies ih =>
    refine WellFormed.conditional hne (fun b hb t ht => (htests b hb t ht).trimmed) hfirst hlast
      ?_ ?_
    · intro b hb n hn hinline
      by_cases hinl : Inlined Pipe.Settled b.body
      · exact (wellFormed_of_inlined hinl n hn).2.1
      · rw [isInline_of_stands (hbodies b hb hinl n hn)] at hinline
        cases hinline
    · intro b hb n hn
      by_cases hinl : Inlined Pipe.Settled b.body
      · exact (wellFormed_of_inlined hinl n hn).1
      · exact ih b hb hinl n hn
  | loop _ hbody ih =>
    refine WellFormed.loop ?_ ih
    intro n hn
    exact isInline_of_stands (hbody n hn)

/-- The texts in a node that stands with settled parts are on one line each. -/
theorem oneLine_of_stands (h : n.Stands Pipe.Settled) : ∀ t ∈ n.texts, OneLine t := by
  induction h with
  | element hsel hchildren ih =>
    intro t ht
    rw [texts] at ht
    rcases List.mem_append.mp ht with ht | ht
    · exact oneLine_of_selector hsel.isName hsel.areClasses t ht
    · obtain ⟨n, hn, ht⟩ := mem_textsIn.mp ht
      exact ih n hn t ht
  | led hname hclasses hps hrest ih =>
    intro t ht
    rw [texts, textsIn, texts] at ht
    rcases List.mem_append.mp ht with ht | ht
    · exact oneLine_of_selector hname hclasses t ht
    · rcases List.mem_append.mp ht with ht | ht
      · exact oneLine_of_settled hps t ht
      · obtain ⟨n, hn, ht⟩ := mem_textsIn.mp ht
        exact ih n hn t ht
  | text hps => exact oneLine_of_settled hps
  | expression hv =>
    intro t ht
    obtain rfl := List.mem_singleton.mp ht
    exact hv.oneLine
  | conditional hne htests hfirst hlast hbodies ih =>
    intro t ht
    obtain ⟨b, hb, ht | ⟨n, hn, ht⟩⟩ := mem_textsOf.mp ht
    · exact (htests b hb t ht).oneLine
    · by_cases hinl : Inlined Pipe.Settled b.body
      · exact (wellFormed_of_inlined hinl n hn).2.2 t ht
      · exact ih b hb hinl n hn t ht
  | loop hl hbody ih =>
    intro t ht
    rw [texts] at ht
    rcases List.mem_cons.mp ht with rfl | ht
    · exact (Loop.solid_of_isLoop hl).oneLine
    · rcases List.mem_cons.mp ht with rfl | ht
      · exact hl.oneLine
      · obtain ⟨n, hn, ht⟩ := mem_textsIn.mp ht
        exact ih n hn t ht

end Node

namespace Template

variable {t : Template} {s : Text}

def texts (t : Template) : List Text :=
  t.id.toList ++ t.rawId.toList ++
    (t.props.elim [] fun p => p.fields.flatMap fun f => [f.name, f.typeText]) ++
    (t.aliases.elim [] fun b => b.aliases.flatMap fun a => a.name :: a.classes) ++
    Node.textsIn t.children

/-- The template is well formed at every depth. -/
structure WellFormed (t : Template) : Prop where
  children : ∀ n ∈ t.children, n.WellFormed ∧ n.isInline = false
  aliases : ∀ b ∈ t.aliases, ∀ a ∈ b.aliases, a.classes ≠ [] ∧ ∀ c ∈ a.classes, '$' ∉ c
  oneLine : ∀ s ∈ t.texts, OneLine s

theorem subset_logical (v : Text) : ∀ c ∈ TemplateId.logical v, c ∈ v := by
  intro c hc
  rw [TemplateId.logical.eq_def] at hc
  split at hc
  · exact hc
  · rw [logicalId, Text.dropEnding?] at hc
    split at hc
    · exact List.mem_of_mem_take hc
    · exact hc

/-- A header that can be written has no line ends and no tabs in it. -/
theorem HeaderStands.oneLine (h : t.HeaderStands) : ∀ s ∈ t.header.texts, OneLine s := by
  intro s hs
  simp only [texts, header, Node.textsIn, List.append_nil, List.mem_append] at hs
  have hid : ∀ s, s ∈ t.id ∨ s ∈ t.rawId → OneLine s := by
    intro s hs
    rcases h.id with ⟨hraw, hid⟩ | ⟨v, hraw, hv, hid⟩
    · simp [hraw, hid] at hs
    · have hone : OneLine v := (TemplateId.solid_of_isValid hv).oneLine
      rcases hs with hs | hs
      · obtain rfl := Option.some.inj (hid.symm.trans hs)
        exact hone.subset (subset_logical v)
      · obtain rfl := Option.some.inj (hraw.symm.trans hs)
        exact hone
  rcases hs with ((hs | hs) | hs) | hs
  · exact hid s (Or.inl (Option.mem_toList.mp hs))
  · exact hid s (Or.inr (Option.mem_toList.mp hs))
  · cases hp : t.props with
    | none => simp [hp] at hs
    | some p =>
      rw [hp] at hs
      obtain ⟨f, hf, hs⟩ := List.mem_flatMap.mp hs
      have hfield := h.fields p hp f hf
      rcases List.mem_cons.mp hs with rfl | hs
      · exact (solid_of_isIdentifier hfield.name).oneLine
      · obtain rfl := List.mem_singleton.mp hs
        exact hfield.oneLine
  · cases hb : t.aliases with
    | none => simp [hb] at hs
    | some b =>
      rw [hb] at hs
      obtain ⟨a, ha, hs⟩ := List.mem_flatMap.mp hs
      have halias := h.aliases b hb a ha
      rcases List.mem_cons.mp hs with rfl | hs
      · exact (solid_of_isIdentifier halias.name).oneLine
      · intro c hc
        have hchar := (halias.classes s hs).2 c hc
        refine ⟨?_, ?_, ?_⟩ <;> rintro rfl <;> simp [isAliasChar, isAsciiWord] at hchar

/-- Every text is read as a well-formed template. -/
theorem wellFormed_read (s : Text) : (read s).template.WellFormed := by
  have hsound : (outline (unifyNewlines s)).Sound Pipe.Settled :=
    sound_outline (Pipe.yields_settled _)
  have hstands : ∀ n ∈ (read s).template.children, n.Stands Pipe.Settled :=
    Outline.lined_nil.mp hsound.children
  constructor
  case children =>
    intro n hn
    exact ⟨Node.wellFormed_of_stands (hstands n hn), Node.isInline_of_stands (hstands n hn)⟩
  case aliases =>
    intro b hb a ha
    have halias := hsound.header.aliases b hb a ha
    refine ⟨halias.ne_nil, ?_⟩
    intro c hc hdollar
    have hchar := (halias.classes c hc).2 '$' hdollar
    simp [isAliasChar, isAsciiWord] at hchar
  case oneLine =>
    intro t ht
    have hsplit : (read s).template.texts =
        (read s).template.header.texts ++ Node.textsIn (read s).template.children := by
      simp [texts, header, Node.textsIn]
    rw [hsplit] at ht
    rcases List.mem_append.mp ht with ht | ht
    · exact hsound.header.oneLine t ht
    · obtain ⟨n, hn, ht⟩ := Node.mem_textsIn.mp ht
      exact Node.oneLine_of_stands (hstands n hn) t ht

end Template

end Offside
