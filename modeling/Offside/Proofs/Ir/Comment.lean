import Offside.Export
import Offside.Proofs.Template.Sound

/-! The comments that stand for what cannot be exported. A comment ends at the first `*/` in it, so
that a text of the template in a comment may have none. -/
namespace Offside.Ir

open Text

/-- The text starts with `/*`, ends with `*/`, and has no other `*/` in it. -/
def IsComment (s : Text) : Prop :=
  ∃ body, s = ['/', '*'] ++ body ++ ['*', '/'] ∧ ¬ ['*', '/'] <:+: ['/', '*'] ++ body ++ ['*']

/-- What stands behind the comment that a text starts with. -/
def behindComment? : Text → Option Text
  | '/' :: '*' :: s => (cutAtPair '*' '/' s).map Prod.snd
  | _ => none

/-- Where an expression of the neutral tree is from. It was written in the template, or it is a
comment that stands for something of the template. -/
inductive Origin
  | written (value : Text)
  | props (block : PropsBlock)
  | loop (variableName iterable : Text)
  | foreign (label : Option Text)

namespace Origin

def text : Origin → Text
  | written v => v
  | props p => propsComment p
  | loop v i => loopComment v i
  | foreign label => foreignComment label

/-- Whether the expression is a comment that the template does not have. -/
def isAdded : Origin → Bool
  | written _ => false
  | props _ | loop _ _ | foreign _ => true

/-- The texts of the template that stand in the comment as they are, names apart. -/
def pasted : Origin → List Text
  | written _ => []
  | props p => p.fields.map (·.typeText)
  | loop _ i => [i]
  | foreign label => label.toList

/-- Where the expression of a part of a text is from. -/
def ofPart? : Part → Option Origin
  | .literal _ => none
  | .expression v _ => some (written v)

end Origin

mutual

/-- Where the expressions that a node is lowered to are from, in their order. -/
def origins : Offside.Node → List Origin
  | .element _ _ children _ => originsIn children
  | .text parts _ _ => parts.filterMap Origin.ofPart?
  | .expression v _ => [.written v]
  | .conditional branches _ => originsOf branches
  | .loop v i _ _ => [.loop v i]
  | .foreign label => [.foreign label]

def originsIn : List Offside.Node → List Origin
  | [] => []
  | n :: ns => origins n ++ originsIn ns

def originsOf : List (Offside.Branch Offside.Node) → List Origin
  | [] => []
  | b :: bs => originsAt b ++ originsOf bs

def originsAt : Offside.Branch Offside.Node → List Origin
  | ⟨_, body, _⟩ => originsIn body

end

def originsOfTemplate (t : Template) : List Origin :=
  (t.props.map Origin.props).toList ++ originsIn t.children

namespace Node

mutual

/-- The expressions in a node, in their order. -/
def expressions : Node → List Text
  | .element _ _ _ children => expressionsIn children
  | .expression v => [v]
  | .fragment children => expressionsIn children
  | .conditional branches => expressionsOf branches
  | .text _ | .foreign => []

def expressionsIn : List Node → List Text
  | [] => []
  | n :: ns => n.expressions ++ expressionsIn ns

def expressionsOf : List (Branch Node) → List Text
  | [] => []
  | b :: bs => expressionsAt b ++ expressionsOf bs

def expressionsAt : Branch Node → List Text
  | ⟨_, children⟩ => expressionsIn children

end

theorem expressionsIn_append (ns ms : List Node) :
    expressionsIn (ns ++ ms) = expressionsIn ns ++ expressionsIn ms := by
  induction ns with
  | nil => rfl
  | cons n ns ih => rw [List.cons_append, expressionsIn, expressionsIn, ih, List.append_assoc]

end Node

/-! ## Every expression has its origin -/

theorem expressionsIn_consText (v : Text) (ns : List Node) :
    Node.expressionsIn (consText v ns) = Node.expressionsIn ns := by
  rw [consText.eq_def]
  split <;> rfl

theorem expressionsIn_ofPartList (ps : List Part) :
    Node.expressionsIn (ofPartList ps) = (ps.filterMap Origin.ofPart?).map Origin.text := by
  induction ps with
  | nil => rfl
  | cons p ps ih =>
    cases p with
    | literal v => rw [ofPartList, expressionsIn_consText, ih]; rfl
    | expression v span => rw [ofPartList, Node.expressionsIn, ih]; rfl

mutual

theorem expressionsIn_lower (env : AliasEnv) : ∀ n : Offside.Node,
    Node.expressionsIn (lower env n) = (origins n).map Origin.text
  | .element _ _ children _ => by
    simp [lower, Node.ofParts, origins, Node.expressionsIn, Node.expressions,
      expressionsIn_lowerList env children]
  | .text parts _ _ => expressionsIn_ofPartList parts
  | .expression _ _ => rfl
  | .conditional branches _ => by
    simp [lower, origins, Node.expressionsIn, Node.expressions,
      expressionsOf_lowerBranches env branches]
  | .loop _ _ _ _ => rfl
  | .foreign _ => rfl

theorem expressionsIn_lowerList (env : AliasEnv) : ∀ ns : List Offside.Node,
    Node.expressionsIn (lowerList env ns) = (originsIn ns).map Origin.text
  | [] => rfl
  | n :: ns => by
    rw [lowerList, Node.expressionsIn_append, expressionsIn_lower env n,
      expressionsIn_lowerList env ns, originsIn, List.map_append]

theorem expressionsOf_lowerBranches (env : AliasEnv) :
    ∀ bs : List (Offside.Branch Offside.Node),
      Node.expressionsOf (lowerBranches env bs) = (originsOf bs).map Origin.text
  | [] => rfl
  | b :: bs => by
    rw [lowerBranches, Node.expressionsOf, expressionsAt_lowerBranch env b,
      expressionsOf_lowerBranches env bs, originsOf, List.map_append]

theorem expressionsAt_lowerBranch (env : AliasEnv) : ∀ b : Offside.Branch Offside.Node,
    Node.expressionsAt (lowerBranch env b) = (originsAt b).map Origin.text
  | ⟨_, body, _⟩ => expressionsIn_lowerList env body

end

theorem expressionsIn_ofTemplate (t : Template) :
    Node.expressionsIn (ofTemplate t) = (originsOfTemplate t).map Origin.text := by
  rw [ofTemplate, originsOfTemplate, Node.expressionsIn_append, expressionsIn_lowerList,
    List.map_append]
  cases t.props <;> rfl

/-! ## Texts without the end of a comment -/

/-- No `*/` is in the text. -/
def Unclosed (s : Text) : Prop := s.IsChain fun x y => ¬(x = '*' ∧ y = '/')

variable {a b s : Text} {o : Origin}

theorem unclosed_iff : Unclosed s ↔ ¬ ['*', '/'] <:+: s := by
  rw [Unclosed, List.isChain_iff_forall_rel_of_append_cons_cons]
  constructor
  · rintro h ⟨front, back, rfl⟩
    have hcut : front ++ ['*', '/'] ++ back = front ++ '*' :: '/' :: back := by simp
    exact h hcut ⟨rfl, rfl⟩
  · rintro h x y front back rfl ⟨rfl, rfl⟩
    exact h ⟨front, back, by simp⟩

theorem unclosed_of_not_mem (h : '*' ∉ s ∨ '/' ∉ s) : Unclosed s := by
  refine unclosed_iff.mpr fun hpair => ?_
  rcases h with h | h
  · exact h (hpair.subset (by simp))
  · exact h (hpair.subset (by simp))

theorem unclosed_append : Unclosed (a ++ b) ↔
    Unclosed a ∧ Unclosed b ∧ ∀ x ∈ a.getLast?, ∀ y ∈ b.head?, ¬(x = '*' ∧ y = '/') :=
  List.isChain_append

/-- A front without a star plays no part. -/
theorem unclosed_append_left (h : '*' ∉ a) : Unclosed (a ++ b) ↔ Unclosed b := by
  rw [unclosed_append]
  refine ⟨fun hboth => hboth.2.1, fun hb => ⟨unclosed_of_not_mem (Or.inl h), hb, ?_⟩⟩
  rintro x hx y - ⟨rfl, -⟩
  exact h (List.mem_of_getLast? hx)

/-- A back without a slash plays no part. -/
theorem unclosed_append_right (h : '/' ∉ b) : Unclosed (a ++ b) ↔ Unclosed a := by
  rw [unclosed_append]
  refine ⟨fun hboth => hboth.1, fun ha => ⟨ha, unclosed_of_not_mem (Or.inr h), ?_⟩⟩
  rintro x - y hy ⟨-, rfl⟩
  exact h (List.mem_of_mem_head? hy)

/-- Texts with a comma and a space between them. -/
theorem unclosed_intercalate {ls : List Text} :
    Unclosed ([',', ' '].intercalate ls) ↔ ∀ l ∈ ls, Unclosed l := by
  induction ls with
  | nil => simp [Unclosed, List.intercalate]
  | cons l ls ih =>
    cases ls with
    | nil => simp [List.intercalate]
    | cons l' ls =>
      have hsplit : [',', ' '].intercalate (l :: l' :: ls) =
          l ++ ([',', ' '] ++ [',', ' '].intercalate (l' :: ls)) := by
        simp [List.intercalate]
      have hback : Unclosed ([',', ' '] ++ [',', ' '].intercalate (l' :: ls)) ↔
          ∀ k ∈ l' :: ls, Unclosed k := by
        rw [unclosed_append_left (by simp), ih]
      rw [hsplit, unclosed_append, hback, List.forall_mem_cons]
      simp

/-! ## Comments -/

/-- A text between the signs of a comment, with a space on either side. -/
def enclosed (body : Text) : Text := ['/', '*', ' '] ++ body ++ [' ', '*', '/']

variable {body : Text}

theorem unclosed_spaced : Unclosed ([' '] ++ (body ++ [' ', '*'])) ↔ Unclosed body := by
  rw [unclosed_append_left (by simp), unclosed_append_right (by simp)]

/-- The signs around a text are a comment unless the text has the end of one. -/
theorem isComment_enclosed : IsComment (enclosed body) ↔ Unclosed body := by
  have hinner : ∀ inner, enclosed body = ['/', '*'] ++ inner ++ ['*', '/'] ↔
      inner = ' ' :: body ++ [' '] := by
    intro inner
    have hsplit : enclosed body = ['/', '*'] ++ (' ' :: body ++ [' ']) ++ ['*', '/'] := by
      simp [enclosed]
    rw [hsplit, List.append_cancel_right_eq, List.append_cancel_left_eq, eq_comm]
  have hsigns : ['/', '*'] ++ (' ' :: body ++ [' ']) ++ ['*'] =
      ['/', '*', ' '] ++ (body ++ [' ', '*']) := by
    simp
  have hfront : Unclosed ['/', '*', ' '] := by simp [Unclosed]
  simp only [IsComment, hinner, exists_eq_left, hsigns, ← unclosed_iff]
  -- neither sign makes a pair with the text, for a space is between them
  rw [unclosed_append, unclosed_append_right (by simp)]
  simp [hfront]

/-- And a reader of comments goes on behind the signs unless the text has the end of one. -/
theorem behindComment?_enclosed :
    (∀ rest, behindComment? (enclosed body ++ rest) = some rest) ↔ Unclosed body := by
  have hread : ∀ rest, behindComment? (enclosed body ++ rest) =
      (cutAtPair '*' '/' ((' ' :: body ++ [' ']) ++ '*' :: '/' :: rest)).map Prod.snd := by
    intro rest
    simp [enclosed, behindComment?]
  have hspaced : Unclosed ((' ' :: body ++ [' ']) ++ ['*']) ↔ Unclosed body := by
    simpa using @unclosed_spaced body
  rw [← hspaced]
  constructor
  · intro h
    obtain ⟨⟨front, back⟩, hcut, hback⟩ := Option.map_eq_some_iff.mp ((hread []).symm.trans (h []))
    obtain ⟨hsplit, hfront⟩ := Offside.Node.cutAtPair_eq_some hcut
    obtain rfl : back = [] := hback
    rwa [← List.append_cancel_right hsplit] at hfront
  · intro h rest
    rw [hread, Offside.Node.cutAtPair_append rest h]
    rfl

/-! ## The comments of a template -/

namespace Origin

/-- What the names in the comment consist of. -/
def Named : Origin → Prop
  | props p => ∀ f ∈ p.fields, IsField f
  | loop v i => IsLoop v i
  | written _ | foreign _ => True

end Origin

theorem star_not_mem_of_isIdentifier {name : Text} (h : IsIdentifier name) : '*' ∉ name :=
  fun hmem => absurd (h.chars '*' hmem) (by decide)

theorem forall_originsIn {Q : Origin → Prop} {ns : List Offside.Node}
    (h : ∀ n ∈ ns, ∀ o ∈ origins n, Q o) : ∀ o ∈ originsIn ns, Q o := by
  induction ns with
  | nil => simp [originsIn]
  | cons n ns ih =>
    obtain ⟨hn, hns⟩ := List.forall_mem_cons.mp h
    rw [originsIn]
    exact List.forall_mem_append.mpr ⟨hn, ih hns⟩

theorem forall_originsOf {Q : Origin → Prop} {bs : List (Offside.Branch Offside.Node)}
    (h : ∀ b ∈ bs, ∀ n ∈ b.body, ∀ o ∈ origins n, Q o) : ∀ o ∈ originsOf bs, Q o := by
  induction bs with
  | nil => simp [originsOf]
  | cons b bs ih =>
    obtain ⟨test, body, span⟩ := b
    obtain ⟨hb, hbs⟩ := List.forall_mem_cons.mp h
    rw [originsOf]
    exact List.forall_mem_append.mpr ⟨forall_originsIn hb, ih hbs⟩

theorem named_parts (ps : List Part) : ∀ o ∈ ps.filterMap Origin.ofPart?, o.Named := by
  intro o ho
  obtain ⟨p, -, hp⟩ := List.mem_filterMap.mp ho
  cases p with
  | literal v => cases hp
  | expression v span =>
    cases hp
    trivial

theorem named_inlined {P : List Part → Prop} {body : List Offside.Node}
    (h : Offside.Node.Inlined P body) : ∀ n ∈ body, ∀ o ∈ origins n, o.Named := by
  cases h with
  | @text ps => simpa [origins] using named_parts ps
  | expression _ => simp [origins, Origin.Named]
  | element _ _ => simp [origins, originsIn]
  | @led _ _ ps => simpa [origins, originsIn] using named_parts ps

/-- What the comments of a node that stands name are fields and loops. -/
theorem named_origins {P : List Part → Prop} {n : Offside.Node} (h : n.Stands P) :
    ∀ o ∈ origins n, o.Named := by
  induction h with
  | element _ _ ih => exact forall_originsIn ih
  | @led _ _ ps _ _ _ _ _ _ _ ih =>
    refine forall_originsIn (List.forall_mem_cons.mpr ⟨named_parts ps, ih⟩)
  | @text ps => exact named_parts ps
  | expression _ =>
    intro o ho
    obtain rfl := List.mem_singleton.mp ho
    trivial
  | @conditional branches _ _ _ _ _ _ ih =>
    refine forall_originsOf fun b hb n hn => ?_
    by_cases hinlined : Offside.Node.Inlined P b.body
    · exact named_inlined hinlined n hn
    · exact ih b hb hinlined n hn
  | loop hloop _ =>
    intro o ho
    obtain rfl := List.mem_singleton.mp ho
    exact hloop

theorem named_originsOfTemplate (s : Text) :
    ∀ o ∈ originsOfTemplate (Template.read s).template, o.Named := by
  refine List.forall_mem_append.mpr ⟨fun o ho => ?_,
    forall_originsIn fun n hn => named_origins (Template.stands_read s n hn)⟩
  obtain ⟨p, hp, rfl⟩ := Option.mem_map.mp (Option.mem_toList.mp ho)
  exact (Template.headerStands_read s).fields p hp

theorem unsupported_eq (reason : Text) :
    unsupported reason = enclosed ("Collie unsupported: ".toList ++ reason) :=
  congrArg (· ++ [' ', '*', '/'])
    (List.append_assoc ['/', '*', ' '] "Collie unsupported: ".toList reason)

def propsSummary (p : PropsBlock) : Text :=
  if p.fields.isEmpty then "Collie props block present. Add TypeScript props manually.".toList
  else "Collie props: ".toList ++ [',', ' '].intercalate (p.fields.map fun f =>
    f.name ++ (if f.optional then ['?'] else []) ++ [':', ' '] ++ f.typeText)

theorem propsComment_eq (p : PropsBlock) : propsComment p = enclosed (propsSummary p) := by
  rw [propsComment, propsSummary]
  split
  · rfl
  · exact congrArg (· ++ [' ', '*', '/'])
      (List.append_assoc ['/', '*', ' '] "Collie props: ".toList _)

/-- The summary of a props block can be a comment unless one of its types ends one. -/
theorem unclosed_propsSummary {p : PropsBlock} (h : ∀ f ∈ p.fields, IsField f) :
    Unclosed (propsSummary p) ↔ ∀ f ∈ p.fields, Unclosed f.typeText := by
  rw [propsSummary]
  split
  · next hempty =>
    have hnote : Unclosed "Collie props block present. Add TypeScript props manually.".toList :=
      unclosed_of_not_mem (Or.inl (by decide))
    simp only [hnote, List.isEmpty_iff.mp hempty, true_iff]
    exact fun f hf => nomatch hf
  · have hfield : ∀ f ∈ p.fields, (Unclosed (f.name ++ (if f.optional then ['?'] else []) ++
        [':', ' '] ++ f.typeText) ↔ Unclosed f.typeText) := by
      intro f hf
      have hname := star_not_mem_of_isIdentifier (h f hf).name
      exact unclosed_append_left (by split <;> simp [hname])
    rw [unclosed_append_left (by decide), unclosed_intercalate, List.forall_mem_map]
    exact forall₂_congr hfield

/-- An added comment is some text between the signs of a comment, and this text has the end of a
comment in it just if one of the texts of the template in it has. -/
theorem exists_enclosed (h : o.Named) (hadded : o.isAdded = true) :
    ∃ body, o.text = enclosed body ∧ (Unclosed body ↔ ∀ t ∈ o.pasted, Unclosed t) := by
  cases o with
  | written v => cases hadded
  | props p =>
    refine ⟨propsSummary p, propsComment_eq p, ?_⟩
    rw [unclosed_propsSummary h, Origin.pasted, List.forall_mem_map]
  | loop v i =>
    have hv : '*' ∉ v := fun hmem => absurd (h.chars '*' hmem) (by decide)
    refine ⟨_, unsupported_eq _, ?_⟩
    rw [unclosed_append_left (by decide), unclosed_append_right (by decide), List.append_assoc,
      List.append_assoc, unclosed_append_left (by decide), unclosed_append_left hv,
      unclosed_append_left (by decide)]
    simp [Origin.pasted]
  | foreign label =>
    refine ⟨_, unsupported_eq _, ?_⟩
    rw [unclosed_append_left (by decide), unclosed_append_left (by decide)]
    cases label with
    | none => simp [Origin.pasted, unclosed_of_not_mem]
    | some l => simp [Origin.pasted]

/-- The expressions of the neutral tree are those of the template and the comments for its props and
its loops. Such a comment is one, and a reader goes on behind it, unless a type of the props or what
the loop goes over has the end of a comment in it. -/
theorem isComment_iff (s : Text) :
    Node.expressionsIn (ofTemplate (Template.read s).template) =
        (originsOfTemplate (Template.read s).template).map Origin.text ∧
      ∀ o ∈ originsOfTemplate (Template.read s).template, o.isAdded = true →
        (IsComment o.text ↔ ∀ t ∈ o.pasted, ¬ ['*', '/'] <:+: t) ∧
        ((∀ rest, behindComment? (o.text ++ rest) = some rest) ↔
          ∀ t ∈ o.pasted, ¬ ['*', '/'] <:+: t) := by
  refine ⟨expressionsIn_ofTemplate _, fun o ho hadded => ?_⟩
  obtain ⟨body, htext, hbody⟩ := exists_enclosed (named_originsOfTemplate s o ho) hadded
  simp only [unclosed_iff] at hbody
  rw [htext, isComment_enclosed, behindComment?_enclosed, unclosed_iff]
  exact ⟨hbody, hbody⟩

/-- A type and a loop with stars and slashes, but without the end of a comment. -/
def starredSource : Text := "props\n  a: string /* x\ndiv\n  @for b in c * d / 2\n    p\n".toList

theorem isComment_iff_starredSource :
    (originsOfTemplate (Template.read starredSource).template).map Origin.text =
      ["/* Collie props: a: string /* x */".toList,
        "/* Collie unsupported: @for b in c * d / 2 loop is not exported */".toList] ∧
      ∀ o ∈ originsOfTemplate (Template.read starredSource).template, IsComment o.text := by
  have htexts : (originsOfTemplate (Template.read starredSource).template).map Origin.text =
      ["/* Collie props: a: string /* x */".toList,
        "/* Collie unsupported: @for b in c * d / 2 loop is not exported */".toList] := by
    decide +kernel
  have hadded : (originsOfTemplate (Template.read starredSource).template).map Origin.isAdded =
      [true, true] := by
    decide +kernel
  have hpasted : (originsOfTemplate (Template.read starredSource).template).map Origin.pasted =
      [["string /* x".toList], ["c * d / 2".toList]] := by
    decide +kernel
  have hopen : ¬ ['*', '/'] <:+: "string /* x".toList := by decide +kernel
  have hproduct : ¬ ['*', '/'] <:+: "c * d / 2".toList := by decide +kernel
  refine ⟨htexts, fun o ho => ?_⟩
  have hiff := (isComment_iff starredSource).2 o ho
  have hflag := List.mem_map_of_mem (f := Origin.isAdded) ho
  have hmem := List.mem_map_of_mem (f := Origin.pasted) ho
  rw [hadded] at hflag
  rw [hpasted] at hmem
  refine (hiff (by simpa using hflag)).1.mpr ?_
  rcases List.mem_cons.mp hmem with h | h
  · rw [h]
    exact List.forall_mem_singleton.mpr hopen
  · rw [List.mem_singleton.mp h]
    exact List.forall_mem_singleton.mpr hproduct

/-- A type that ends the comment it stands in. -/
def closingSource : Text := "props\n  a: x */ y\ndiv\n".toList

/-- The comment ends in the middle of the type, and the rest of it is read as code. -/
theorem not_isComment_closingSource :
    (exportTemplate closingSource none {}).output =
        "<>\n  \x7b/* Collie props: a: x */ y */\x7d\n  <div />\n</>\n".toList ∧
      ¬ IsComment "/* Collie props: a: x */ y */".toList ∧
      behindComment? "/* Collie props: a: x */ y */".toList = some " y */".toList := by
  refine ⟨by decide +kernel, ?_, by decide +kernel⟩
  have htext : "/* Collie props: a: x */ y */".toList = enclosed "Collie props: a: x */ y".toList :=
    rfl
  rw [htext, isComment_enclosed, unclosed_iff, not_not]
  decide +kernel

end Offside.Ir
