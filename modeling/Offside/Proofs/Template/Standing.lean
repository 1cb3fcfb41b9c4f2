import Offside.Proofs.Template.LineKind
import Offside.Proofs.Template.Condition
import Offside.Proofs.Template.Outline

/-! Trees that can be written. `Stands` is what reading makes sure of and what writing needs; it is
kept while a tree grows at its open edge, one entry for each line. -/
namespace Offside

/-- What an element line without a text says. It is no header. -/
structure IsSelector (name : Text) (classes : List Text) : Prop where
  isName : IsName name
  areClasses : ∀ t ∈ classes, IsClass t
  noHeader : classes = [] →
    name ≠ ['p', 'r', 'o', 'p', 's'] ∧ name ≠ ['c', 'l', 'a', 's', 's', 'e', 's']

/-- The node can stand on lines of its own. All parts of its texts have the property `P`. -/
inductive Node.Stands (P : List Part → Prop) : Node → Prop
  | element {name : Text} {classes : List Text} {children : List Node} {span : Option Span} :
      IsSelector name classes → (∀ n ∈ children, Stands P n) →
      Stands P (.element name classes children span)
  | led {name : Text} {classes : List Text} {ps : List Part} {rest : List Node}
      {span span' : Option Span} : IsName name → (∀ t ∈ classes, IsClass t) → P ps →
      (∀ n ∈ rest, Stands P n) →
      Stands P (.element name classes (.text ps .inline span' :: rest) span)
  | text {ps : List Part} {span : Option Span} : P ps → Stands P (.text ps .block span)
  | expression {v : Text} {span : Option Span} : IsExpression v → Stands P (.expression v span)
  | conditional {branches : List (Branch Node)} {span : Option Span} : branches ≠ [] →
      (∀ b ∈ branches, ∀ t ∈ b.test, IsTest t) → (∀ b ∈ branches.head?, b.test ≠ none) →
      (∀ b ∈ branches.dropLast, b.test ≠ none) →
      (∀ b ∈ branches, ¬ Inlined P b.body → ∀ n ∈ b.body, Stands P n) →
      Stands P (.conditional branches span)
  | loop {v i : Text} {body : List Node} {span : Option Span} : IsLoop v i →
      (∀ n ∈ body, Stands P n) → Stands P (.loop v i body span)

/-- What a line adds to a tree. -/
inductive Entry
  | node (n : Node)
  /-- A branch of the conditional above. -/
  | branch (b : Branch Node)

namespace Entry

/-- Puts an entry at the end of a list. -/
def into : Entry → List Node → List Node
  | node n => (· ++ [n])
  | branch b => onLast (Node.addBranch b)

def isBranch : Entry → Bool
  | node _ => false
  | branch _ => true

end Entry

variable {P : List Part → Prop}

/-- The branch as its line gives it. With `opens` its body is still to come. -/
structure Branch.Stands (P : List Part → Prop) (b : Branch Node) (opens : Bool) : Prop where
  test : ∀ t ∈ b.test, IsTest t
  body : b.body = [] ∨ opens = false ∧ Node.Inlined P b.body

/-- The entry is what a line can give. With `opens` deeper lines go into it. -/
inductive Entry.Stands (P : List Part → Prop) : Entry → Bool → Prop
  | element {name : Text} {classes : List Text} {span : Option Span} : IsSelector name classes →
      Stands P (.node (.element name classes [] span)) true
  | led {name : Text} {classes : List Text} {ps : List Part} {span span' : Option Span} :
      IsName name → (∀ t ∈ classes, IsClass t) → P ps →
      Stands P (.node (.element name classes [.text ps .inline span'] span)) true
  | text {ps : List Part} {span : Option Span} : P ps →
      Stands P (.node (.text ps .block span)) false
  | expression {v : Text} {span : Option Span} : IsExpression v →
      Stands P (.node (.expression v span)) false
  | conditional {b : Branch Node} {opens : Bool} {span : Option Span} : b.Stands P opens →
      b.test ≠ none → Stands P (.node (.conditional [b] span)) opens
  | loop {v i : Text} {span : Option Span} : IsLoop v i →
      Stands P (.node (.loop v i [] span)) true
  | branch {b : Branch Node} {opens : Bool} : b.Stands P opens → Stands P (.branch b) opens

namespace Chain

/-- The list ends with the conditional that can take another branch. -/
def Ends (c : Chain) (ns : List Node) : Prop :=
  ∃ front branches span, ns = front ++ [.conditional branches span] ∧ branches ≠ [] ∧
    (c.hasElse = false → ∀ b ∈ branches, b.test ≠ none)

end Chain

namespace Outline

variable {lead ns body : List Node} {n : Node} {d k : Nat} {e : Entry} {opens : Bool}

/-- Behind the nodes that lead the list, all nodes stand. -/
def Lined (P : List Part → Prop) (lead ns : List Node) : Prop :=
  ∃ rest, ns = lead ++ rest ∧ ∀ n ∈ rest, n.Stands P

/-- The nodes below the node stand on lines of their own, so more can follow them. -/
def Hosts (P : List Part → Prop) : Node → Prop
  | .conditional branches _ => ∀ b ∈ branches.getLast?, ∀ n ∈ b.body, n.Stands P
  | _ => True

/-- The list `d` steps down the open edge can grow. -/
def OpenAt (P : List Part → Prop) : Nat → List Node → Prop
  | 0, _ => True
  | d + 1, ns => ∃ n body, ns.getLast? = some n ∧ n.body? = some body ∧ Hosts P n ∧ OpenAt P d body

theorem lined_nil : Lined P [] ns ↔ ∀ n ∈ ns, n.Stands P := by
  simp [Lined]

theorem OpenAt.mono (h : OpenAt P d ns) (hk : k ≤ d) : OpenAt P k ns := by
  induction k generalizing d ns with
  | zero => trivial
  | succ k ih =>
    obtain ⟨d, rfl⟩ : ∃ e, d = e + 1 := ⟨d - 1, by omega⟩
    obtain ⟨n, body, hn, hbody, hhosts, hopen⟩ := h
    exact ⟨n, body, hn, hbody, hhosts, ih hopen (by omega)⟩

theorem OpenAt.exists_listAt? (h : OpenAt P d ns) : ∃ body, listAt? d ns = some body := by
  induction d generalizing ns with
  | zero => exact ⟨ns, rfl⟩
  | succ d ih =>
    obtain ⟨n, body, hn, hbody, -, hopen⟩ := h
    obtain ⟨inner, hinner⟩ := ih hopen
    exact ⟨inner, by simp [listAt?, hn, hbody, hinner]⟩

/-- A node that stands goes on standing while the list in it grows behind what leads it. -/
theorem exists_lead (h : n.Stands P) (hb : n.body? = some body) (hh : Hosts P n) :
    ∃ lead, (∀ k ∈ lead, k.body? = none) ∧ Lined P lead body ∧
      ∀ g : List Node → List Node, Lined P lead (g body) →
        (n.mapBody g).Stands P ∧ Hosts P (n.mapBody g) := by
  cases h with
  | element hs hc =>
    obtain rfl := Option.some.inj hb
    refine ⟨[], by simp, lined_nil.mpr hc, fun g hg => ⟨?_, trivial⟩⟩
    exact Node.Stands.element hs (lined_nil.mp hg)
  | @led name classes ps rest span span' hn hc hps hrest =>
    obtain rfl := Option.some.inj hb
    refine ⟨[.text ps .inline span'], by simp [Node.body?], ⟨rest, rfl, hrest⟩, ?_⟩
    rintro g ⟨more, hg, hmore⟩
    refine ⟨?_, trivial⟩
    rw [Node.mapBody, hg]
    exact Node.Stands.led hn hc hps hmore
  | text => cases hb
  | expression => cases hb
  | @conditional branches span hne htests hfirst hlast hbodies =>
    obtain ⟨front, b, rfl⟩ := List.eq_nil_or_concat' branches |>.resolve_left hne
    obtain rfl : b.body = body := by simpa [Node.body?] using hb
    have hstand : ∀ n ∈ b.body, n.Stands P := hh b (by simp)
    refine ⟨[], by simp, lined_nil.mpr hstand, fun g hg => ?_⟩
    have hg' := lined_nil.mp hg
    rw [Node.mapBody, onLast_concat]
    refine ⟨Node.Stands.conditional (by simp) ?_ ?_ (by simpa using hlast) ?_, ?_⟩
    · intro c hc
      rcases List.mem_append.mp hc with hc | hc
      · exact htests c (List.mem_append_left _ hc)
      · obtain rfl := List.mem_singleton.mp hc
        exact htests b (by simp)
    · cases front with
      | nil => simpa [Branch.mapBody] using hfirst
      | cons c front => simpa using hfirst
    · intro c hc
      rcases List.mem_append.mp hc with hc | hc
      · exact hbodies c (List.mem_append_left _ hc)
      · obtain rfl := List.mem_singleton.mp hc
        exact fun _ => hg'
    · intro c hc
      obtain rfl : Branch.mapBody g b = c := by simpa using hc
      exact hg'
  | loop hl hbody =>
    obtain rfl := Option.some.inj hb
    refine ⟨[], by simp, lined_nil.mpr hbody, fun g hg => ⟨?_, trivial⟩⟩
    exact Node.Stands.loop hl (lined_nil.mp hg)

/-- The nodes that lead a list have no body, so a host is not one of them. -/
theorem exists_concat {front rest : List Node} (hlead : ∀ k ∈ lead, k.body? = none)
    (hn : n.body? ≠ none) (h : lead ++ rest = front ++ [n]) : ∃ front', rest = front' ++ [n] := by
  rcases List.eq_nil_or_concat' rest with rfl | ⟨front', m, rfl⟩
  · rw [List.append_nil] at h
    exact (hn (hlead n (by simp [h]))).elim
  · rw [← List.append_assoc] at h
    obtain ⟨-, he⟩ := List.append_inj' h rfl
    exact ⟨front', by rw [he]⟩

/-- A tree goes on standing when a list at its open edge grows, and is open as deep as that list. -/
theorem grow {f : List Node → List Node} {e : Nat} (hlead : ∀ k ∈ lead, k.body? = none)
    (hns : Lined P lead ns) (hopen : OpenAt P d ns)
    (hf : ∀ lead body, (∀ k ∈ lead, k.body? = none) → listAt? d ns = some body →
      Lined P lead body → Lined P lead (f body) ∧ OpenAt P e (f body)) :
    Lined P lead (modifyAt f d ns) ∧ OpenAt P (d + e) (modifyAt f d ns) := by
  induction d generalizing lead ns with
  | zero =>
    rw [Nat.zero_add]
    exact hf lead ns hlead rfl hns
  | succ d ih =>
    obtain ⟨n, body, hn, hbody, hhosts, hopen⟩ := hopen
    obtain ⟨rest, rfl, hrest⟩ := hns
    obtain ⟨front, hfront⟩ := List.getLast?_eq_some_iff.mp hn
    obtain ⟨front', rfl⟩ := exists_concat hlead (by simp [hbody]) hfront
    obtain ⟨lead', hlead', hlined, hgrow⟩ := exists_lead (hrest n (by simp)) hbody hhosts
    have hlist : ∀ inner, listAt? d body = some inner →
        listAt? (d + 1) (lead ++ (front' ++ [n])) = some inner := by
      intro inner hinner
      simp [listAt?, hbody, hinner]
    obtain ⟨hlined', hopen'⟩ := ih hlead' hlined hopen
      fun lead inner hlead h => hf lead inner hlead (hlist inner h)
    obtain ⟨hstands, hhosts'⟩ := hgrow (modifyAt f d) hlined'
    have hmod : modifyAt f (d + 1) (lead ++ (front' ++ [n])) =
        lead ++ (front' ++ [n.mapBody (modifyAt f d)]) := by
      rw [modifyAt, ← List.append_assoc, onLast_concat, List.append_assoc]
    rw [hmod]
    refine ⟨⟨_, rfl, ?_⟩, ?_⟩
    · intro m hm
      rcases List.mem_append.mp hm with hm | hm
      · exact hrest m (List.mem_append_left _ hm)
      · obtain rfl := List.mem_singleton.mp hm
        exact hstands
    · rw [Nat.add_right_comm]
      refine ⟨_, _, by simp, ?_, hhosts', hopen'⟩
      rw [Node.body?_mapBody, hbody]
      rfl

theorem Lined.concat (h : Lined P lead ns) (hn : n.Stands P) : Lined P lead (ns ++ [n]) := by
  obtain ⟨rest, rfl, hrest⟩ := h
  refine ⟨rest ++ [n], by simp, fun m hm => ?_⟩
  rcases List.mem_append.mp hm with hm | hm
  · exact hrest m hm
  · obtain rfl := List.mem_singleton.mp hm
    exact hn

theorem openAt_one (hb : n.body? = some body) (hh : Hosts P n) : OpenAt P 1 (ns ++ [n]) :=
  ⟨n, body, by simp, hb, hh, trivial⟩

theorem stands_conditional_singleton {b : Branch Node} {span : Option Span} (hb : b.Stands P opens)
    (ht : b.test ≠ none) : (Node.conditional [b] span).Stands P := by
  refine Node.Stands.conditional (by simp) ?_ (by simpa using ht) (by simp) ?_
  · intro c hc
    obtain rfl := List.mem_singleton.mp hc
    exact hb.test
  · intro c hc hinl
    obtain rfl := List.mem_singleton.mp hc
    rcases hb.body with hnil | ⟨-, h⟩
    · simp [hnil]
    · exact (hinl h).elim

/-- One more branch that stands keeps a conditional standing, if the last one had a test. -/
theorem stands_addBranch {branches : List (Branch Node)} {b : Branch Node} {span : Option Span}
    (hc : (Node.conditional branches span).Stands P) (hb : b.Stands P opens)
    (ht : ∀ b ∈ branches, b.test ≠ none) :
    (Node.conditional (branches ++ [b]) span).Stands P := by
  cases hc with
  | conditional hne htests hfirst hlast hbodies =>
    refine Node.Stands.conditional (by simp) ?_ ?_ (by simpa using ht) ?_
    · intro c hc
      rcases List.mem_append.mp hc with hc | hc
      · exact htests c hc
      · obtain rfl := List.mem_singleton.mp hc
        exact hb.test
    · obtain ⟨c, cs, rfl⟩ := List.exists_cons_of_ne_nil hne
      simpa using hfirst
    · intro c hc
      rcases List.mem_append.mp hc with hc | hc
      · exact hbodies c hc
      · obtain rfl := List.mem_singleton.mp hc
        intro hinl
        rcases hb.body with hnil | ⟨-, h⟩
        · simp [hnil]
        · exact (hinl h).elim

theorem hosts_conditional {branches : List (Branch Node)} {b : Branch Node} {span : Option Span}
    (hb : b.Stands P true) : Hosts P (.conditional (branches ++ [b]) span) := by
  intro c hc
  obtain rfl : b = c := by simpa using hc
  rcases hb.body with hnil | ⟨h, -⟩
  · simp [hnil]
  · cases h

/-- An entry can follow what stands, and what follows it goes into it if it opens. -/
theorem lined_into (he : e.Stands P opens) (hlead : ∀ k ∈ lead, k.body? = none)
    (hbranch : e.isBranch = true → ∃ c : Chain, c.hasElse = false ∧ c.Ends body)
    (hbody : Lined P lead body) :
    Lined P lead (e.into body) ∧ OpenAt P (if opens then 1 else 0) (e.into body) := by
  cases he with
  | element hs => exact ⟨hbody.concat (Node.Stands.element hs (by simp)), openAt_one rfl trivial⟩
  | led hn hc hps =>
    exact ⟨hbody.concat (Node.Stands.led hn hc hps (by simp)), openAt_one rfl trivial⟩
  | text hps => exact ⟨hbody.concat (Node.Stands.text hps), trivial⟩
  | expression hv => exact ⟨hbody.concat (Node.Stands.expression hv), trivial⟩
  | loop hl => exact ⟨hbody.concat (Node.Stands.loop hl (by simp)), openAt_one rfl trivial⟩
  | @conditional b opens span hb ht =>
    refine ⟨hbody.concat (stands_conditional_singleton hb ht), ?_⟩
    cases opens with
    | false => trivial
    | true =>
      have hh : Hosts P (.conditional ([] ++ [b]) span) := hosts_conditional hb
      exact openAt_one rfl hh
  | @branch b opens hb =>
    obtain ⟨c, hc, front, branches, span, rfl, hne, ht⟩ := hbranch rfl
    have hlast : (Node.conditional branches span).body? ≠ none := by simpa [Node.body?] using hne
    obtain ⟨rest, hrest, hstands⟩ := hbody
    obtain ⟨front', rfl⟩ := exists_concat hlead hlast hrest.symm
    obtain ⟨rfl, -⟩ := List.append_inj' (hrest.trans (List.append_assoc ..).symm) rfl
    have hgrown := stands_addBranch (hstands (.conditional branches span) (by simp)) hb (ht hc)
    have hinto : (Entry.branch b).into (lead ++ front' ++ [.conditional branches span]) =
        lead ++ front' ++ [.conditional (branches ++ [b]) span] := by
      rw [Entry.into, onLast_concat, Node.addBranch]
    rw [hinto]
    refine ⟨Lined.concat ⟨front', rfl, fun m hm => hstands m (by simp [hm])⟩ hgrown, ?_⟩
    cases opens with
    | false => trivial
    | true =>
      have hb' : (Node.conditional (branches ++ [b]) span).body? = some b.body := by
        simp [Node.body?]
      exact openAt_one hb' (hosts_conditional hb)

/-- A tree goes on standing when an entry is put at its open edge. -/
theorem lined_modifyAt_into (he : e.Stands P opens) (hns : Lined P [] ns) (hopen : OpenAt P d ns)
    (hbranch : e.isBranch = true →
      ∃ c : Chain, c.hasElse = false ∧ ∃ body, listAt? d ns = some body ∧ c.Ends body) :
    Lined P [] (modifyAt e.into d ns) ∧
      OpenAt P (d + if opens then 1 else 0) (modifyAt e.into d ns) := by
  refine grow (by simp) hns hopen fun lead body hlead hlist hlined => ?_
  refine lined_into he hlead (fun hb => ?_) hlined
  obtain ⟨c, hc, body', hbody', hends⟩ := hbranch hb
  obtain rfl : body' = body := Option.some.inj (hbody'.symm.trans hlist)
  exact ⟨c, hc, hends⟩

end Outline

namespace Node

theorem anyForeign_of_inlined {body : List Node} (h : Inlined P body) :
    anyForeign body = false := by
  cases h <;> simp [anyForeign, hasForeign]

mutual

/-- No node that stands is foreign. -/
theorem hasForeign_of_stands : ∀ n : Node, n.Stands P → n.hasForeign = false
  | .element name classes children span, h => by
    cases h with
    | element hs hc => rw [hasForeign, anyForeign_of_stands children hc]
    | @led _ _ ps rest _ span' hn hc hps hrest =>
      rw [hasForeign, anyForeign, hasForeign, anyForeign_of_stands rest hrest]
      rfl
  | .text _ _ _, _ => rfl
  | .expression _ _, _ => rfl
  | .conditional branches span, h => by
    cases h with
    | conditional hne htests hfirst hlast hbodies =>
      rw [hasForeign, anyForeignBranch_of_stands branches hbodies]
  | .loop v i body span, h => by
    cases h with
    | loop hl hbody => rw [hasForeign, anyForeign_of_stands body hbody]
  | .foreign _, h => by
    cases h

theorem anyForeign_of_stands : ∀ ns : List Node, (∀ n ∈ ns, n.Stands P) → anyForeign ns = false
  | [], _ => rfl
  | n :: ns, h => by
    rw [anyForeign, hasForeign_of_stands n (h n List.mem_cons_self),
      anyForeign_of_stands ns fun k hk => h k (List.mem_cons_of_mem n hk)]
    rfl

theorem anyForeignBranch_of_stands : ∀ bs : List (Branch Node),
    (∀ b ∈ bs, ¬ Inlined P b.body → ∀ n ∈ b.body, n.Stands P) → anyForeignBranch bs = false
  | [], _ => rfl
  | b :: bs, h => by
    rw [anyForeignBranch, foreignBranch_of_stands b (h b List.mem_cons_self),
      anyForeignBranch_of_stands bs fun c hc => h c (List.mem_cons_of_mem b hc)]
    rfl

theorem foreignBranch_of_stands : ∀ b : Branch Node,
    (¬ Inlined P b.body → ∀ n ∈ b.body, n.Stands P) → foreignBranch b = false
  | ⟨_, body, _⟩, h => by
    rw [foreignBranch]
    by_cases hinl : Inlined P body
    · exact anyForeign_of_inlined hinl
    · exact anyForeign_of_stands body (h hinl)

end

end Node

end Offside
