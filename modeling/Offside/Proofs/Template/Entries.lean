import Offside.Proofs.Template.Written

/-! The entries of a tree, one for each line that is written of it. All of them stand if the tree
stands, and each is at most one level deeper than the one before it. -/
namespace Offside

open Text

namespace Node

variable {o : Layout} {body : List Node} {test : Option Text} {span : Option Span}

/-- The body of a branch, as far as it goes on the line of its head. -/
def headBody (o : Layout) (body : List Node) : List Node :=
  if (inlineBody? o body).isSome then body else []

/-- The lines of the body of a branch, unless it goes on the line of its head. -/
def bodyLines (o : Layout) (level : Nat) (body : List Node) : List Text :=
  if (inlineBody? o body).isSome then [] else linesOf o (level + 1) body

theorem linesOfBranch_eq (o : Layout) (level : Nat) (isFirst : Bool) (test : Option Text)
    (body : List Node) (span : Option Span) :
    linesOfBranch o level isFirst ⟨test, body, span⟩ =
      linesOfBranch o level isFirst ⟨test, headBody o body, span⟩ ++ bodyLines o level body := by
  rw [headBody, bodyLines, linesOfBranch]
  cases h : inlineBody? o body with
  | some t => simp [linesOfBranch, h]
  | none =>
    have hnil : inlineBody? o [] = none := rfl
    simp [linesOfBranch, hnil, linesOf]

/-- A body that goes on the line of its head can be read there; another one stands. -/
theorem inlined_or_stands (h : ¬ Inlined Pipe.Readable body → ∀ n ∈ body, n.Stands Pipe.Readable)
    (o : Layout) : Inlined Pipe.Readable body ∧ (inlineBody? o body).isSome = true ∨
      (∀ n ∈ body, n.Stands Pipe.Readable) ∧ (inlineBody? o body).isSome = false := by
  by_cases hinl : Inlined Pipe.Readable body
  · obtain ⟨t, -, ht, -⟩ := readInline_write hinl o ⟨0, 0, 0⟩
    exact Or.inl ⟨hinl, by simp [ht]⟩
  · refine Or.inr ⟨h hinl, ?_⟩
    have hstand := h hinl
    rw [Bool.eq_false_iff]
    intro hsome
    apply hinl
    rw [inlineBody?.eq_def] at hsome
    split at hsome
    · next ps span =>
      cases hstand _ (List.mem_singleton_self _)
    · next v span =>
      cases hstand _ (List.mem_singleton_self _) with
      | expression hv => exact Inlined.expression hv
    · next name classes span =>
      cases hstand _ (List.mem_singleton_self _) with
      | element hs _ => exact Inlined.element hs.isName hs.areClasses
    · next name classes ps span span' =>
      cases hstand _ (List.mem_singleton_self _) with
      | element hs hc => cases hc _ (List.mem_singleton_self _)
      | led hn hc hps _ => exact Inlined.led hn hc hps
    · cases hsome

theorem headBody_of_inlined (h : (inlineBody? o body).isSome = true) (level : Nat) :
    headBody o body = body ∧ bodyLines o level body = [] := by
  simp [headBody, bodyLines, h]

theorem headBody_of_not_inlined (h : (inlineBody? o body).isSome = false) (level : Nat) :
    headBody o body = [] ∧ bodyLines o level body = linesOf o (level + 1) body := by
  simp [headBody, bodyLines, h]

/-- The head of a branch stands without the body below it. -/
theorem stands_headBody (ht : ∀ t ∈ test, IsTest t)
    (h : ¬ Inlined Pipe.Readable body → ∀ n ∈ body, n.Stands Pipe.Readable) (o : Layout)
    (span : Option Span) :
    ∃ opens, Branch.Stands Pipe.Readable ⟨test, headBody o body, span⟩ opens := by
  rcases inlined_or_stands h o with ⟨hinl, hsome⟩ | ⟨-, hsome⟩
  · rw [(headBody_of_inlined hsome 0).1]
    exact ⟨false, ht, Or.inr ⟨rfl, hinl⟩⟩
  · rw [(headBody_of_not_inlined hsome 0).1]
    exact ⟨true, ht, Or.inl rfl⟩

mutual

/-- The entries of a node, each with its level. -/
def entries (o : Layout) (level : Nat) : Node → List (Nat × Entry)
  | .element name classes (.text parts .inline span' :: rest) span =>
    (level, .node (.element name classes [.text parts .inline span'] span)) ::
      entriesIn o (level + 1) rest
  | .element name classes children span =>
    (level, .node (.element name classes [] span)) :: entriesIn o (level + 1) children
  | .text parts placement span => [(level, .node (.text parts placement span))]
  | .expression value span => [(level, .node (.expression value span))]
  | .conditional [] _ => []
  | .conditional (b :: bs) span =>
    entriesAt o level (fun b => .node (.conditional [b] span)) b ++ entriesOf o level bs
  | .loop variableName iterable body span =>
    (level, .node (.loop variableName iterable [] span)) :: entriesIn o (level + 1) body
  | .foreign _ => []

def entriesIn (o : Layout) (level : Nat) : List Node → List (Nat × Entry)
  | [] => []
  | n :: ns => n.entries o level ++ entriesIn o level ns

/-- The entries of branches that follow another one. -/
def entriesOf (o : Layout) (level : Nat) : List (Branch Node) → List (Nat × Entry)
  | [] => []
  | b :: bs => entriesAt o level .branch b ++ entriesOf o level bs

/-- The entries of a branch, the first of them made of its head. -/
def entriesAt (o : Layout) (level : Nat) (head : Branch Node → Entry) :
    Branch Node → List (Nat × Entry)
  | ⟨test, body, span⟩ =>
    (level, head ⟨test, headBody o body, span⟩) ::
      if (inlineBody? o body).isSome then [] else entriesIn o (level + 1) body

end

theorem entries_element_of_not_led {children : List Node} (h : ¬ Led children) (o : Layout)
    (level : Nat) (name : Text) (classes : List Text) (span : Option Span) :
    (Node.element name classes children span).entries o level =
      (level, .node (.element name classes [] span)) :: entriesIn o (level + 1) children := by
  rw [entries]
  rintro parts span' rest rfl
  exact h ⟨parts, span', rest, rfl⟩

def linesOfEntries (o : Layout) (ps : List (Nat × Entry)) : List Text :=
  ps.flatMap fun p => p.2.lines o p.1

mutual

/-- The lines of a node are those of its entries. -/
theorem lines_eq_entries (o : Layout) : ∀ (n : Node) (level : Nat),
    n.lines o level = linesOfEntries o (n.entries o level)
  | .element name classes children span, level => by
    by_cases hled : Led children
    · obtain ⟨ps, span', rest, rfl⟩ := hled
      rw [entries, linesOfEntries, List.flatMap_cons, Entry.lines, lines, lines,
        linesOf_eq_entries o rest (level + 1)]
      rfl
    · rw [entries_element_of_not_led hled, linesOfEntries, List.flatMap_cons, Entry.lines,
        lines_element_of_not_led hled, lines_element_of_not_led (by simp [Led]),
        linesOf_eq_entries o children (level + 1)]
      rfl
  | .text _ _ _, level => by simp [lines, entries, linesOfEntries, Entry.lines]
  | .expression _ _, level => by simp [lines, entries, linesOfEntries, Entry.lines]
  | .conditional [] _, level => rfl
  | .conditional (b :: bs) span, level => by
    rw [lines, branchLines, entries, linesOfEntries, List.flatMap_append,
      branchLines_eq_entries o bs level,
      linesOfBranch_eq_entries o b level true (fun b => .node (.conditional [b] span)) fun b => by
        simp [Entry.lines, lines, branchLines]]
    rfl
  | .loop v i body span, level => by
    rw [lines, entries, linesOfEntries, List.flatMap_cons, Entry.lines, lines,
      linesOf_eq_entries o body (level + 1)]
    rfl
  | .foreign _, level => rfl

theorem linesOf_eq_entries (o : Layout) : ∀ (ns : List Node) (level : Nat),
    linesOf o level ns = linesOfEntries o (entriesIn o level ns)
  | [], _ => rfl
  | n :: ns, level => by
    rw [linesOf, entriesIn, linesOfEntries, List.flatMap_append, lines_eq_entries o n level,
      linesOf_eq_entries o ns level]
    rfl

theorem branchLines_eq_entries (o : Layout) : ∀ (bs : List (Branch Node)) (level : Nat),
    branchLines o level false bs = linesOfEntries o (entriesOf o level bs)
  | [], _ => rfl
  | b :: bs, level => by
    rw [branchLines, entriesOf, linesOfEntries, List.flatMap_append,
      branchLines_eq_entries o bs level,
      linesOfBranch_eq_entries o b level false .branch fun _ => rfl]
    rfl

theorem linesOfBranch_eq_entries (o : Layout) : ∀ (b : Branch Node) (level : Nat) (isFirst : Bool)
    (head : Branch Node → Entry),
    (∀ b, (head b).lines o level = linesOfBranch o level isFirst b) →
    linesOfBranch o level isFirst b = linesOfEntries o (entriesAt o level head b)
  | ⟨test, body, span⟩, level, isFirst, head, hhead => by
    rw [linesOfBranch_eq, entriesAt, linesOfEntries, List.flatMap_cons, hhead, bodyLines]
    split
    · rfl
    · rw [linesOf_eq_entries o body (level + 1)]
      rfl

end

/-- Entries are at a level or deeper, the first at most at level `k`, and each of them at most one
level deeper than the one before it. -/
def Climbs (level k : Nat) : List (Nat × Entry) → Prop
  | [] => True
  | p :: ps => level ≤ p.1 ∧ p.1 ≤ k ∧ Climbs level (p.1 + 1) ps

theorem Climbs.mono {level k : Nat} {ps : List (Nat × Entry)} (h : Climbs (level + 1) k ps) :
    Climbs level k ps := by
  induction ps generalizing k with
  | nil => trivial
  | cons p ps ih => exact ⟨by have := h.1; omega, h.2.1, ih h.2.2⟩

theorem Climbs.append {level k : Nat} {ps qs : List (Nat × Entry)} (h : Climbs level k ps)
    (hk : level ≤ k) (hqs : Climbs level level qs) : Climbs level k (ps ++ qs) := by
  induction ps generalizing k with
  | nil =>
    cases qs with
    | nil => trivial
    | cons q qs => exact ⟨hqs.1, hqs.2.1.trans hk, hqs.2.2⟩
  | cons p ps ih => exact ⟨h.1, h.2.1, ih h.2.2 (h.1.trans (Nat.le_succ p.1))⟩

mutual

/-- The levels of the entries of a node climb by one step at most. -/
theorem climbs_entries (o : Layout) : ∀ (n : Node) (level : Nat),
    Climbs level level (n.entries o level)
  | .element name classes children span, level => by
    by_cases hled : Led children
    · obtain ⟨ps, span', rest, rfl⟩ := hled
      rw [entries]
      exact ⟨le_rfl, le_rfl, (climbs_entriesIn o rest (level + 1)).mono⟩
    · rw [entries_element_of_not_led hled]
      exact ⟨le_rfl, le_rfl, (climbs_entriesIn o children (level + 1)).mono⟩
  | .text _ _ _, level => by
    rw [entries]
    exact ⟨le_rfl, le_rfl, trivial⟩
  | .expression _ _, level => by
    rw [entries]
    exact ⟨le_rfl, le_rfl, trivial⟩
  | .conditional [] _, level => by
    rw [entries]
    trivial
  | .conditional (b :: bs) span, level => by
    rw [entries]
    exact (climbs_entriesAt o b level _).append le_rfl (climbs_entriesOf o bs level)
  | .loop v i body span, level => by
    rw [entries]
    exact ⟨le_rfl, le_rfl, (climbs_entriesIn o body (level + 1)).mono⟩
  | .foreign _, level => by
    rw [entries]
    trivial

theorem climbs_entriesIn (o : Layout) : ∀ (ns : List Node) (level : Nat),
    Climbs level level (entriesIn o level ns)
  | [], _ => trivial
  | n :: ns, level => (climbs_entries o n level).append le_rfl (climbs_entriesIn o ns level)

theorem climbs_entriesOf (o : Layout) : ∀ (bs : List (Branch Node)) (level : Nat),
    Climbs level level (entriesOf o level bs)
  | [], _ => trivial
  | b :: bs, level =>
    (climbs_entriesAt o b level _).append le_rfl (climbs_entriesOf o bs level)

theorem climbs_entriesAt (o : Layout) : ∀ (b : Branch Node) (level : Nat)
    (head : Branch Node → Entry), Climbs level level (entriesAt o level head b)
  | ⟨test, body, span⟩, level, head => by
    rw [entriesAt]
    refine ⟨le_rfl, le_rfl, ?_⟩
    split
    · trivial
    · exact (climbs_entriesIn o body (level + 1)).mono

end

mutual

/-- The entries of a node that stands stand. -/
theorem stands_entries (o : Layout) : ∀ (n : Node) (level : Nat), n.Stands Pipe.Readable →
    ∀ p ∈ n.entries o level, ∃ opens, p.2.Stands Pipe.Readable opens
  | .element name classes children span, level, h, p, hp => by
    cases h with
    | element hsel hc =>
      have hled : ¬ Led children := by
        rintro ⟨ps, span', rest, rfl⟩
        cases hc _ List.mem_cons_self
      rw [entries_element_of_not_led hled] at hp
      rcases List.mem_cons.mp hp with rfl | hp
      · exact ⟨true, Entry.Stands.element hsel⟩
      · exact stands_entriesIn o children (level + 1) hc p hp
    | @led _ _ ps rest _ span' hn hc hps hrest =>
      rw [entries] at hp
      rcases List.mem_cons.mp hp with rfl | hp
      · exact ⟨true, Entry.Stands.led hn hc hps⟩
      · exact stands_entriesIn o rest (level + 1) hrest p hp
  | .text ps placement span, level, h, p, hp => by
    cases h with
    | text hps =>
      rw [entries] at hp
      obtain rfl := List.mem_singleton.mp hp
      exact ⟨false, Entry.Stands.text hps⟩
  | .expression v span, level, h, p, hp => by
    cases h with
    | expression hv =>
      rw [entries] at hp
      obtain rfl := List.mem_singleton.mp hp
      exact ⟨false, Entry.Stands.expression hv⟩
  | .conditional [] _, level, h, p, hp => by
    rw [entries] at hp
    cases hp
  | .conditional (b :: bs) span, level, h, p, hp => by
    cases h with
    | conditional hne htests hfirst hdrop hbodies =>
      have hb := List.mem_cons_self (a := b) (l := bs)
      rw [entries] at hp
      rcases List.mem_append.mp hp with hp | hp
      · refine stands_entriesAt o b level _ (htests b hb) (hbodies b hb)
          (fun c opens hc ht => ?_) p hp
        exact Entry.Stands.conditional hc (ht ▸ hfirst b rfl)
      · exact stands_entriesOf o bs level (fun c hc => htests c (List.mem_cons_of_mem b hc))
          (fun c hc => hbodies c (List.mem_cons_of_mem b hc)) p hp
  | .loop v i body span, level, h, p, hp => by
    cases h with
    | loop hl hbody =>
      rw [entries] at hp
      rcases List.mem_cons.mp hp with rfl | hp
      · exact ⟨true, Entry.Stands.loop hl⟩
      · exact stands_entriesIn o body (level + 1) hbody p hp
  | .foreign _, level, h, p, hp => by
    cases h

theorem stands_entriesIn (o : Layout) : ∀ (ns : List Node) (level : Nat),
    (∀ n ∈ ns, n.Stands Pipe.Readable) →
    ∀ p ∈ entriesIn o level ns, ∃ opens, p.2.Stands Pipe.Readable opens
  | [], _, _, p, hp => by cases hp
  | n :: ns, level, h, p, hp => by
    rw [entriesIn] at hp
    rcases List.mem_append.mp hp with hp | hp
    · exact stands_entries o n level (h n List.mem_cons_self) p hp
    · exact stands_entriesIn o ns level (fun k hk => h k (List.mem_cons_of_mem n hk)) p hp

/-- The entries of branches that stand stand. -/
theorem stands_entriesOf (o : Layout) : ∀ (bs : List (Branch Node)) (level : Nat),
    (∀ b ∈ bs, ∀ t ∈ b.test, IsTest t) →
    (∀ b ∈ bs, ¬ Inlined Pipe.Readable b.body → ∀ n ∈ b.body, n.Stands Pipe.Readable) →
    ∀ p ∈ entriesOf o level bs, ∃ opens, p.2.Stands Pipe.Readable opens
  | [], _, _, _, p, hp => by cases hp
  | b :: bs, level, htests, hbodies, p, hp => by
    have hb := List.mem_cons_self (a := b) (l := bs)
    rw [entriesOf] at hp
    rcases List.mem_append.mp hp with hp | hp
    · exact stands_entriesAt o b level .branch (htests b hb) (hbodies b hb)
        (fun c opens hc _ => Entry.Stands.branch hc) p hp
    · exact stands_entriesOf o bs level (fun c hc => htests c (List.mem_cons_of_mem b hc))
        (fun c hc => hbodies c (List.mem_cons_of_mem b hc)) p hp

/-- The entries of a branch that stands stand. -/
theorem stands_entriesAt (o : Layout) : ∀ (b : Branch Node) (level : Nat)
    (head : Branch Node → Entry), (∀ t ∈ b.test, IsTest t) →
    (¬ Inlined Pipe.Readable b.body → ∀ n ∈ b.body, n.Stands Pipe.Readable) →
    (∀ c opens, c.Stands Pipe.Readable opens → c.test = b.test →
      (head c).Stands Pipe.Readable opens) →
    ∀ p ∈ entriesAt o level head b, ∃ opens, p.2.Stands Pipe.Readable opens
  | ⟨test, body, span⟩, level, head, htest, hbody, hhead, p, hp => by
    rw [entriesAt] at hp
    rcases List.mem_cons.mp hp with rfl | hp
    · obtain ⟨opens, hstand⟩ := stands_headBody htest hbody o span
      exact ⟨opens, hhead _ opens hstand rfl⟩
    · rcases inlined_or_stands hbody o with ⟨-, hsome⟩ | ⟨hstand, hsome⟩
      · rw [if_pos hsome] at hp
        cases hp
      · rw [if_neg (by simp [hsome])] at hp
        exact stands_entriesIn o body (level + 1) hstand p hp

end

end Node

end Offside
