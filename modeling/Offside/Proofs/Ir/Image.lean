import Offside.Proofs.Ir.Skeleton

/-! A template and the tree that it is lowered to, node by node. Elements, expressions and
conditionals have one node each, a text has one for each of its parts, and a loop has a comment. The
classes of an element are what its class tokens stand for, and no reference is left among them. -/
namespace Offside

open Text

/-- What a class token stands for. A reference stands for the classes of the last alias that is
declared with its name. -/
inductive Resolves (aliases : List ClassAlias) : Text → List Text → Prop
  | literal {c : Char} {s : Text} : c ≠ '$' → Resolves aliases (c :: s) [c :: s]
  | declared {a : ClassAlias} {before after : List ClassAlias} : IsIdentifier a.name →
      aliases = before ++ a :: after → (∀ b ∈ after, b.name ≠ a.name) →
      Resolves aliases ('$' :: a.name) a.classes
  | undeclared {name : Text} : (∀ a ∈ aliases, a.name ≠ name) → Resolves aliases ('$' :: name) []
  | malformed {name : Text} : ¬ IsIdentifier name → Resolves aliases ('$' :: name) []

def Expands (aliases : List ClassAlias) (tokens classes : List Text) : Prop :=
  ∃ resolved, List.Forall₂ (Resolves aliases) tokens resolved ∧ classes = resolved.flatten

/-- The aliases of a template in the order of their declaration. -/
def Template.declared (t : Template) : List ClassAlias := t.aliases.elim [] (·.aliases)

/-! ## Class tokens -/

namespace AliasEnv

variable {aliases : List ClassAlias} {name token : Text} {tokens classes : List Text}

/-- The classes that aliases stand for, the latest declaration first. -/
def ofAliases (aliases : List ClassAlias) : AliasEnv :=
  aliases.reverse.map fun a => (a.name, a.classes)

theorem ofBlock_eq (t : Template) : ofBlock t.aliases = ofAliases t.declared := by
  rw [Template.declared]
  cases t.aliases with
  | none => rfl
  | some b => exact List.map_reverse.symm

theorem lookup_map (name : Text) (aliases : List ClassAlias) :
    List.lookup name (aliases.map fun a => (a.name, a.classes)) =
      (aliases.find? (name == ·.name)).map (·.classes) := by
  induction aliases with
  | nil => rfl
  | cons a aliases ih =>
    rw [List.map_cons, List.lookup_cons, List.find?_cons, ih]
    cases name == a.name <;> rfl

theorem lookup_eq_none (h : ∀ a ∈ aliases, a.name ≠ name) :
    List.lookup name (ofAliases aliases) = none := by
  rw [ofAliases, lookup_map, Option.map_eq_none_iff, List.find?_eq_none]
  intro a ha heq
  exact h a (List.mem_reverse.mp ha) (beq_iff_eq.mp heq).symm

/-- The last alias with a name is the one that is found. -/
theorem lookup_eq_some {a : ClassAlias} {before after : List ClassAlias}
    (h : ∀ b ∈ after, b.name ≠ a.name) :
    List.lookup a.name (ofAliases (before ++ a :: after)) = some a.classes := by
  have hfound : (before ++ a :: after).reverse.find? (a.name == ·.name) = some a := by
    rw [List.find?_eq_some_iff_append]
    refine ⟨beq_self_eq_true a.name, after.reverse, before.reverse, by simp, fun b hb => ?_⟩
    simpa using (h b (List.mem_reverse.mp hb)).symm
  rw [ofAliases, lookup_map, hfound, Option.map_some]

/-- Of the aliases with a name there is a last one. -/
theorem exists_last (h : ∃ a ∈ aliases, a.name = name) : ∃ before a after,
    aliases = before ++ a :: after ∧ a.name = name ∧ ∀ b ∈ after, b.name ≠ name := by
  obtain ⟨a, ha, hname⟩ := h
  cases hfound : aliases.reverse.find? (name == ·.name) with
  | none =>
    have hnone := List.find?_eq_none.mp hfound a (List.mem_reverse.mpr ha)
    exact (hnone (by simp [hname])).elim
  | some a' =>
    obtain ⟨heq, later, earlier, hsplit, hlater⟩ := List.find?_eq_some_iff_append.mp hfound
    refine ⟨earlier.reverse, a', later.reverse, ?_, (beq_iff_eq.mp heq).symm, fun b hb hb' => ?_⟩
    · rw [← List.reverse_reverse aliases, hsplit]
      simp
    · have hne := hlater b (List.mem_reverse.mp hb)
      simp [hb'] at hne

/-- A reference that does not end with a line feed refers to an alias just if an identifier stands
behind its `$`. -/
theorem reference?_eq_some_iff (hlast : name.getLast? ≠ some '\n') {found : Text} :
    reference? ('$' :: name) = some found ↔ found = name ∧ IsIdentifier name := by
  cases name with
  | nil =>
    refine ⟨nofun, fun ⟨_, hname⟩ => ?_⟩
    obtain ⟨c, s, heq, -⟩ := hname.starts
    cases heq
  | cons c s =>
    have hname : IsIdentifier (c :: s) ↔
        ((c.isAlpha || c == '_') && (c :: s).all isAsciiWord) = true := by
      rw [Bool.and_eq_true, List.all_eq_true]
      refine ⟨fun h => ⟨?_, h.chars⟩, fun h => ⟨⟨c, s, rfl, h.1⟩, h.2⟩⟩
      obtain ⟨d, t, heq, hd⟩ := h.starts
      obtain ⟨rfl, rfl⟩ := List.cons.inj heq
      exact hd
    have hs : (s.getLast? == some '\n') = false := by
      rw [beq_eq_false_iff_ne]
      intro hs
      cases s with
      | nil => cases hs
      | cons d t => exact hlast (by rwa [List.getLast?_cons_cons])
    rw [reference?, hs, hname]
    simp only [Bool.false_eq_true, if_false, Option.ite_none_right_eq_some, Option.some_inj]
    exact ⟨fun h => ⟨h.2.symm, h.1⟩, fun h => ⟨h.2, h.1.symm⟩⟩

theorem expandToken_identifier (h : IsIdentifier name) (env : AliasEnv) :
    env.expandToken ('$' :: name) = (List.lookup name env).getD [] := by
  have hlast : name.getLast? ≠ some '\n' := fun hlast =>
    absurd (h.chars '\n' (List.mem_of_getLast? hlast)) (by decide)
  rw [expandToken, (reference?_eq_some_iff hlast).mpr ⟨rfl, h⟩, Option.bind_some]

theorem expandToken_malformed (hlast : name.getLast? ≠ some '\n') (h : ¬ IsIdentifier name)
    (env : AliasEnv) : env.expandToken ('$' :: name) = [] := by
  have hnone : reference? ('$' :: name) = none :=
    Option.eq_none_iff_forall_ne_some.mpr fun found hfound =>
      h ((reference?_eq_some_iff hlast).mp hfound).2
  rw [expandToken, hnone]
  rfl

/-- A class token of an element stands for just the classes that it is expanded to. -/
theorem resolves_iff (h : IsClass token) (aliases : List ClassAlias) :
    Resolves aliases token classes ↔ classes = (ofAliases aliases).expandToken token := by
  -- a line feed at the end of a reference would be left out, but no token of an element has one
  have hlast : token.getLast? ≠ some '\n' := fun hlast =>
    absurd (Selector.solid_of_isClass h '\n' (List.mem_of_getLast? hlast)) (by decide)
  have hname : ∀ name, token = '$' :: name → name.getLast? ≠ some '\n' := by
    rintro name rfl heq
    cases name with
    | nil => cases heq
    | cons c s => exact hlast (by rwa [List.getLast?_cons_cons])
  constructor
  · intro hresolves
    cases hresolves with
    | literal hc => rw [expandToken_literal hc]
    | declared hid heq hafter =>
      rw [expandToken_identifier hid, heq, lookup_eq_some hafter, Option.getD_some]
    | @undeclared name hnone =>
      by_cases hid : IsIdentifier name
      · rw [expandToken_identifier hid, lookup_eq_none hnone, Option.getD_none]
      · rw [expandToken_malformed (hname name rfl) hid]
    | malformed hid => rw [expandToken_malformed (hname _ rfl) hid]
  · rintro rfl
    obtain ⟨c, s, rfl⟩ : ∃ c s, token = c :: s := by
      obtain ⟨d, s, rfl | rfl, -⟩ := h <;> exact ⟨_, _, rfl⟩
    by_cases hc : c = '$'
    · subst hc
      by_cases hid : IsIdentifier s
      · rw [expandToken_identifier hid]
        by_cases hdeclared : ∃ a ∈ aliases, a.name = s
        · obtain ⟨before, a, after, rfl, rfl, hafter⟩ := exists_last hdeclared
          rw [lookup_eq_some hafter, Option.getD_some]
          exact .declared hid rfl hafter
        · have hnone : ∀ a ∈ aliases, a.name ≠ s := fun a ha heq => hdeclared ⟨a, ha, heq⟩
          rw [lookup_eq_none hnone, Option.getD_none]
          exact .undeclared hnone
      · rw [expandToken_malformed (hname s rfl) hid]
        exact .malformed hid
    · rw [expandToken_literal hc]
      exact .literal hc

theorem expands_iff (h : ∀ t ∈ tokens, IsClass t) (aliases : List ClassAlias) :
    Expands aliases tokens classes ↔ classes = (ofAliases aliases).expand tokens := by
  have hresolved : ∀ resolved, List.Forall₂ (Resolves aliases) tokens resolved ↔
      resolved = tokens.map (ofAliases aliases).expandToken := by
    intro resolved
    induction tokens generalizing resolved with
    | nil => simp
    | cons t ts ih =>
      obtain ⟨ht, hts⟩ := List.forall_mem_cons.mp h
      simp only [List.forall₂_cons_left_iff, resolves_iff ht, ih hts, List.map_cons]
      exact ⟨fun ⟨_, _, hcs, hrest, heq⟩ => by rw [heq, hcs, hrest],
        fun heq => ⟨_, _, rfl, rfl, heq⟩⟩
  simp only [Expands, hresolved, exists_eq_left, expand, List.flatMap_def]

end AliasEnv

/-! ## Nodes -/

namespace Ir

variable {aliases : List ClassAlias} {n : Offside.Node} {ns : List Offside.Node} {k : Node}
  {ks : List Node} {bs : List (Offside.Branch Offside.Node)} {cs : List (Branch Node)}
  {ps : List Part}

def ofPart : Part → Node
  | .literal v => .text v
  | .expression v _ => .expression v

mutual

/-- The nodes that a node of a template is lowered to. -/
inductive Image (aliases : List ClassAlias) : Offside.Node → List Node → Prop
  | element {name : Text} {tokens classes : List Text} {children : List Offside.Node}
      {images : List Node} {span : Option Span} : Expands aliases tokens classes →
      Images aliases children images →
      Image aliases (.element name tokens children span) [.element name classes [] images]
  | text {parts : List Part} {placement : Placement} {span : Option Span} :
      Image aliases (.text parts placement span) (parts.map ofPart)
  | expression {v : Text} {span : Option Span} : Image aliases (.expression v span) [.expression v]
  | conditional {branches : List (Offside.Branch Offside.Node)} {images : List (Branch Node)}
      {span : Option Span} : BranchImages aliases branches images →
      Image aliases (.conditional branches span) [.conditional images]
  | loop {v i : Text} {body : List Offside.Node} {span : Option Span} :
      Image aliases (.loop v i body span) [.expression (loopComment v i)]

/-- The nodes that nodes side by side are lowered to. -/
inductive Images (aliases : List ClassAlias) : List Offside.Node → List Node → Prop
  | nil : Images aliases [] []
  | cons {n : Offside.Node} {ns : List Offside.Node} {image images : List Node} :
      Image aliases n image → Images aliases ns images →
      Images aliases (n :: ns) (image ++ images)

inductive BranchImages (aliases : List ClassAlias) :
    List (Offside.Branch Offside.Node) → List (Branch Node) → Prop
  | nil : BranchImages aliases [] []
  | cons {test : Option Text} {body : List Offside.Node} {span : Option Span}
      {branches : List (Offside.Branch Offside.Node)} {image : List Node}
      {images : List (Branch Node)} : Images aliases body image →
      BranchImages aliases branches images →
      BranchImages aliases (⟨test, body, span⟩ :: branches) (⟨test, image⟩ :: images)

end

/-! ## What the comments name -/

theorem eq_of_append_spaced {a b c d between v w i j : Text} (hspace : between.head? = some ' ')
    (hv : Solid v) (hw : Solid w)
    (h : a ++ (b ++ v ++ between ++ i ++ c) ++ d = a ++ (b ++ w ++ between ++ j ++ c) ++ d) :
    v = w ∧ i = j := by
  obtain ⟨u, rfl⟩ := List.head?_eq_some_iff.mp hspace
  simp only [List.append_assoc, List.append_right_inj, List.cons_append] at h
  have hname := congrArg (splitWhen isBlank) h
  rw [splitWhen_append_cons hv rfl, splitWhen_append_cons hw rfl] at hname
  obtain rfl := (List.cons.inj hname).1
  simpa using h

/-- Loops that differ in their variable or in what they go over have different comments. -/
theorem loopComment_inj {v w i j : Text} (hv : Solid v) (hw : Solid w) :
    loopComment v i = loopComment w j ↔ v = w ∧ i = j := by
  refine ⟨fun h => ?_, fun ⟨hv, hi⟩ => by rw [hv, hi]⟩
  unfold loopComment unsupported at h
  exact eq_of_append_spaced (by decide) hv hw h

/-- Each text is inside the texts put together. -/
theorem isInfix_intercalate {sep t : Text} {ts : List Text} (ht : t ∈ ts) :
    t <:+: sep.intercalate ts := by
  induction ts with
  | nil => cases ht
  | cons u ts ih =>
    cases ts with
    | nil =>
      obtain rfl := List.mem_singleton.mp ht
      simp [List.intercalate]
    | cons w ts =>
      rw [List.intercalate_cons_cons]
      rcases List.mem_cons.mp ht with rfl | ht
      · rw [List.append_assoc]
        exact (List.prefix_append ..).isInfix
      · exact (ih ht).trans (List.suffix_append ..).isInfix

/-- The comment of a props block names each field with its type. -/
theorem isInfix_propsComment {p : PropsBlock} {f : PropsField} (hf : f ∈ p.fields) :
    f.name ++ (if f.optional then ['?'] else []) ++ [':', ' '] ++ f.typeText <:+:
      propsComment p := by
  have hne : ¬ p.fields.isEmpty = true := by
    rw [List.isEmpty_iff]
    exact List.ne_nil_of_mem hf
  rw [propsComment, if_neg hne]
  exact (isInfix_intercalate (List.mem_map_of_mem (f := fun f : PropsField => f.name ++
    (if f.optional then ['?'] else []) ++ [':', ' '] ++ f.typeText) hf)).trans
      ((List.suffix_append ..).isInfix.trans (List.prefix_append ..).isInfix)

/-- No text in the node is empty, and its classes are no references, and so for every node in it. -/
inductive Node.Resolved : Node → Prop
  | element {tag : Text} {classes : List Text} {children : List Node} :
      (∀ t ∈ classes, IsPlainClass t ∧ '$' ∉ t) → (∀ k ∈ children, Node.Resolved k) →
      Node.Resolved (.element tag classes [] children)
  | text {v : Text} : v ≠ [] → Node.Resolved (.text v)
  | expression {v : Text} : Node.Resolved (.expression v)
  | conditional {branches : List (Branch Node)} :
      (∀ b ∈ branches, ∀ k ∈ b.children, Node.Resolved k) → Node.Resolved (.conditional branches)

/-! ## What is lowered is the image -/

/-- Parts of which no two neighbours are literal are lowered one by one. -/
theorem ofPartList_eq (h : Pipe.Merged ps) : ofPartList ps = ps.map ofPart := by
  induction ps with
  | nil => rfl
  | cons p ps ih =>
    obtain ⟨hhead, hapart⟩ := List.isChain_cons.mp h.apart
    have hps : Pipe.Merged ps := ⟨fun v hv => h.literals v (List.mem_cons_of_mem p hv), hapart,
      fun v span hv => h.expressions v span (List.mem_cons_of_mem p hv)⟩
    cases p with
    | expression v span => rw [ofPartList, ih hps, List.map_cons, ofPart]
    | literal v =>
      obtain ⟨c, s, rfl⟩ := List.exists_cons_of_ne_nil (h.literals v List.mem_cons_self)
      rw [ofPartList, ih hps, List.map_cons, ofPart]
      cases ps with
      | nil => rfl
      | cons q ps =>
        cases q with
        | literal w => exact (hhead (.literal w) rfl ⟨rfl, rfl⟩).elim
        | expression w span => rfl

/-- Nodes in a row are lowered to their images, if each is. -/
theorem images_iff {env : AliasEnv}
    (h : ∀ n ∈ ns, ∀ ks, Image aliases n ks ↔ ks = lower env n) :
    Images aliases ns ks ↔ ks = lowerList env ns := by
  induction ns generalizing ks with
  | nil =>
    constructor
    · intro himages
      cases himages
      rfl
    · rintro rfl
      exact .nil
  | cons n ns ih =>
    obtain ⟨hn, hns⟩ := List.forall_mem_cons.mp h
    constructor
    · intro himages
      cases himages with
      | cons himage himages => rw [(hn _).mp himage, (ih hns).mp himages, lowerList]
    · rintro rfl
      exact .cons ((hn _).mpr rfl) ((ih hns).mpr rfl)

/-- Branches are lowered to their images, if the nodes in them are. -/
theorem branchImages_iff {env : AliasEnv}
    (h : ∀ b ∈ bs, ∀ n ∈ b.body, ∀ ks, Image aliases n ks ↔ ks = lower env n) :
    BranchImages aliases bs cs ↔ cs = lowerBranches env bs := by
  induction bs generalizing cs with
  | nil =>
    constructor
    · intro himages
      cases himages
      rfl
    · rintro rfl
      exact .nil
  | cons b bs ih =>
    obtain ⟨test, body, span⟩ := b
    obtain ⟨hb, hbs⟩ := List.forall_mem_cons.mp h
    constructor
    · intro himages
      cases himages with
      | cons himage himages =>
        rw [(images_iff hb).mp himage, (ih hbs).mp himages, lowerBranches, lowerBranch]
    · rintro rfl
      exact .cons ((images_iff hb).mpr rfl) ((ih hbs).mpr rfl)

/-- The image of a well-formed node is what it is lowered to, and nothing else. -/
theorem image_iff (hplain : (AliasEnv.ofAliases aliases).Plain) (h : n.WellFormed) :
    Image aliases n ks ↔ ks = lower (AliasEnv.ofAliases aliases) n := by
  induction h generalizing ks with
  | element _ hclasses _ _ ih =>
    have hnormal := Node.normalizeClasses_eq (hplain.expand hclasses)
    rw [lower, Node.ofParts, hnormal]
    constructor
    · intro himage
      cases himage with
      | element hexpands himages =>
        rw [(AliasEnv.expands_iff hclasses aliases).mp hexpands,
          (images_iff fun n hn ks => ih n hn).mp himages]
    · rintro rfl
      exact .element ((AliasEnv.expands_iff hclasses aliases).mpr rfl)
        ((images_iff fun n hn ks => ih n hn).mpr rfl)
  | text hmerged =>
    rw [lower, ofPartList_eq hmerged]
    constructor
    · intro himage
      cases himage
      rfl
    · rintro rfl
      exact .text
  | expression _ _ =>
    constructor
    · intro himage
      cases himage
      rfl
    · rintro rfl
      exact .expression
  | conditional _ _ _ _ _ _ ih =>
    rw [lower]
    constructor
    · intro himage
      cases himage with
      | conditional himages => rw [(branchImages_iff fun b hb n hn ks => ih b hb n hn).mp himages]
    · rintro rfl
      exact .conditional ((branchImages_iff fun b hb n hn ks => ih b hb n hn).mpr rfl)
  | loop _ _ _ =>
    constructor
    · intro himage
      cases himage
      rfl
    · rintro rfl
      exact .loop

/-! ## What is lowered is resolved -/

/-- A node that can come of a template, and so can every node in it: names and classes fit into a
tag, a text is part of a line, and of some branches only the last can lack a test. -/
inductive Node.FromTemplate : Node → Prop
  | element {tag : Text} {classes : List Text} {children : List Node} : IsName tag →
      (∀ t ∈ classes, IsPlainClass t) → (∀ k ∈ children, Node.FromTemplate k) →
      Node.FromTemplate (.element tag classes [] children)
  | text {v : Text} : v ≠ [] → Unbroken v → Node.FromTemplate (.text v)
  | expression {v : Text} : Node.FromTemplate (.expression v)
  | conditional {branches : List (Branch Node)} : branches ≠ [] →
      (∀ b ∈ branches, ∀ t ∈ b.test, t ≠ []) → (∀ b ∈ branches.head?, b.test ≠ none) →
      (∀ b ∈ branches.dropLast, b.test ≠ none) →
      (∀ b ∈ branches, ∀ k ∈ b.children, Node.FromTemplate k) →
      Node.FromTemplate (.conditional branches)

theorem not_mem_of_isPlainClass {t : Text} (h : IsPlainClass t) : '$' ∉ t := fun hmem =>
  absurd (h.chars '$' hmem) (by decide)

theorem Node.FromTemplate.resolved (h : k.FromTemplate) : k.Resolved := by
  induction h with
  | element _ hclasses _ ih =>
    exact .element (fun t ht => ⟨hclasses t ht, not_mem_of_isPlainClass (hclasses t ht)⟩) ih
  | text hne _ => exact .text hne
  | expression => exact .expression
  | conditional _ _ _ _ _ ih => exact .conditional ih

theorem fromTemplate_lowerList {env : AliasEnv} (h : ∀ n ∈ ns, ∀ k ∈ lower env n, k.FromTemplate) :
    ∀ k ∈ lowerList env ns, k.FromTemplate := by
  induction ns with
  | nil => simp [lowerList]
  | cons n ns ih =>
    obtain ⟨hn, hns⟩ := List.forall_mem_cons.mp h
    rw [lowerList]
    exact List.forall_mem_append.mpr ⟨hn, ih hns⟩

theorem test_lowerBranch (env : AliasEnv) (b : Offside.Branch Offside.Node) :
    (lowerBranch env b).test = b.test := by
  cases b
  rfl

/-- What is lowered from a node can be in a template. -/
theorem fromTemplate_lower {env : AliasEnv} (hplain : env.Plain) (h : n.WellFormed)
    (hlines : ∀ t ∈ n.texts, OneLine t) : ∀ k ∈ lower env n, k.FromTemplate := by
  induction h with
  | element hname hclasses _ _ ih =>
    have hexpand := hplain.expand hclasses
    intro k hk
    rw [lower, Node.ofParts, Node.normalizeClasses_eq hexpand] at hk
    obtain rfl := List.mem_singleton.mp hk
    refine .element hname hexpand (fromTemplate_lowerList fun n hn => ih n hn fun t ht => ?_)
    exact hlines t (List.mem_append_right _ (Offside.Node.mem_textsIn.mpr ⟨n, hn, ht⟩))
  | text hmerged =>
    intro k hk
    rw [lower, ofPartList_eq hmerged] at hk
    obtain ⟨p, hp, rfl⟩ := List.mem_map.mp hk
    cases p with
    | literal v =>
      exact .text (hmerged.literals v hp) (hlines v (List.mem_map.mpr ⟨_, hp, rfl⟩)).unbroken
    | expression v span => exact .expression
  | expression _ _ =>
    intro k hk
    obtain rfl := List.mem_singleton.mp hk
    exact .expression
  | @conditional branches _ hne htrim hfirst hlast _ _ ih =>
    intro k hk
    obtain rfl := List.mem_singleton.mp hk
    rw [lowerBranches_eq_map]
    refine .conditional (by simpa using hne) ?_ ?_ ?_ ?_
    · intro b hb t ht
      obtain ⟨b', hb', rfl⟩ := List.mem_map.mp hb
      exact (htrim b' hb' t (test_lowerBranch env b' ▸ ht)).ne_nil
    · intro b hb
      rw [List.head?_map] at hb
      obtain ⟨b', hb', rfl⟩ := Option.mem_map.mp hb
      rw [test_lowerBranch]
      exact hfirst b' hb'
    · intro b hb
      rw [← List.map_dropLast] at hb
      obtain ⟨b', hb', rfl⟩ := List.mem_map.mp hb
      rw [test_lowerBranch]
      exact hlast b' hb'
    · intro b hb k hk
      obtain ⟨⟨test, body, span⟩, hbranch, rfl⟩ := List.mem_map.mp hb
      refine fromTemplate_lowerList (fun n hn => ih _ hbranch n hn fun t ht => ?_) k hk
      exact hlines t (Offside.Node.mem_textsOf.mpr ⟨_, hbranch, Or.inr ⟨n, hn, ht⟩⟩)
  | loop _ _ _ =>
    intro k hk
    obtain rfl := List.mem_singleton.mp hk
    exact .expression

theorem fromTemplate_children (s : Text) :
    ∀ k ∈ lowerList (AliasEnv.ofBlock (Template.read s).template.aliases)
      (Template.read s).template.children, k.FromTemplate := by
  have hwell := Template.wellFormed_read s
  refine fromTemplate_lowerList fun n hn => fromTemplate_lower
    (AliasEnv.plain_ofBlock (Template.headerStands_read s).aliases) (hwell.children n hn).1 ?_
  intro t ht
  exact hwell.oneLine t (List.mem_append_right _ (Offside.Node.mem_textsIn.mpr ⟨n, hn, ht⟩))

theorem fromTemplate_ofTemplate (s : Text) :
    ∀ k ∈ ofTemplate (Template.read s).template, k.FromTemplate := by
  rw [ofTemplate]
  refine List.forall_mem_append.mpr ⟨fun k hk => ?_, fromTemplate_children s⟩
  obtain ⟨p, -, rfl⟩ := Option.mem_map.mp (Option.mem_toList.mp hk)
  exact .expression

/-- A template is lowered to a comment for its props, if it has any, and to the image of its nodes
behind it. Nothing else is the image of the nodes, and no reference is left at any depth of it. -/
theorem ofTemplate_image (s : Text) : ∃ comment nodes,
    ofTemplate (Template.read s).template = comment ++ nodes ∧
      ((Template.read s).template.props = none → comment = []) ∧
      (∀ p ∈ (Template.read s).template.props, comment = [.expression (propsComment p)]) ∧
      (∀ ks, Images (Template.read s).template.declared (Template.read s).template.children ks ↔
        ks = nodes) ∧
      ∀ k ∈ nodes, k.Resolved := by
  have hwell : ∀ n ∈ (Template.read s).template.children, n.WellFormed := fun n hn =>
    ((Template.wellFormed_read s).children n hn).1
  have hplain : (AliasEnv.ofAliases (Template.read s).template.declared).Plain := by
    rw [← AliasEnv.ofBlock_eq]
    exact AliasEnv.plain_ofBlock (Template.headerStands_read s).aliases
  refine ⟨((Template.read s).template.props.map fun p => .expression (propsComment p)).toList,
    lowerList (AliasEnv.ofAliases (Template.read s).template.declared)
      (Template.read s).template.children, ?_, ?_, ?_, ?_, ?_⟩
  · rw [ofTemplate, AliasEnv.ofBlock_eq]
  · intro hnone
    rw [hnone]
    rfl
  · intro p hp
    rw [Option.mem_def.mp hp]
    rfl
  · exact fun ks => images_iff fun n hn ks => image_iff hplain (hwell n hn)
  · rw [← AliasEnv.ofBlock_eq]
    exact fun k hk => (fromTemplate_children s k hk).resolved

end Ir

end Offside
