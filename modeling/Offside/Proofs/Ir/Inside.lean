import Offside.Proofs.Ir.Choices
import Offside.Proofs.Ir.Export
import Offside.Proofs.Ir.Lowering
import Offside.Proofs.Template.WellFormed

/-! Conditionals at any depth of a template. The lines of a conditional stand among the lines of
whatever it is in, unless that is a loop: a loop leaves a comment in its place. -/
namespace Offside

open Text

/-- A node is another one or stands in it, behind a loop only if `loops` says so. -/
inductive Node.Inside (loops : Bool) (m : Node) : Node → Prop
  | here : Inside loops m m
  | element {name : Text} {classes : List Text} {children : List Node} {span : Option Span}
      {n : Node} : n ∈ children → Inside loops m n →
      Inside loops m (.element name classes children span)
  | branch {branches : List (Branch Node)} {span : Option Span} {b : Branch Node} {n : Node} :
      b ∈ branches → n ∈ b.body → Inside loops m n → Inside loops m (.conditional branches span)
  | loop {v i : Text} {body : List Node} {span : Option Span} {n : Node} : loops = true →
      n ∈ body → Inside loops m n → Inside loops m (.loop v i body span)

theorem Node.Inside.wellFormed {loops : Bool} {m n : Node} (h : Node.Inside loops m n)
    (hn : n.WellFormed) : m.WellFormed := by
  induction h with
  | here => exact hn
  | element hmem _ ih =>
    cases hn with
    | element _ _ _ hchildren => exact ih (hchildren _ hmem)
  | branch hb hmem _ ih =>
    cases hn with
    | conditional _ _ _ _ _ hbodies => exact ih (hbodies _ hb _ hmem)
  | loop _ hmem _ ih =>
    cases hn with
    | loop _ hbody => exact ih (hbody _ hmem)

namespace Ir

variable {env : AliasEnv} {size : Int} {level : Nat} {k : Node} {ks : List Node}
  {n : Offside.Node} {ns : List Offside.Node} {b : Branch Node} {bs : List (Branch Node)}

/-! ## Lines among lines -/

theorem mem_lowerList (hn : n ∈ ns) (hk : k ∈ lower env n) : k ∈ lowerList env ns := by
  induction ns with
  | nil => cases hn
  | cons m ns ih =>
    rw [lowerList, List.mem_append]
    rcases List.mem_cons.mp hn with rfl | hn
    · exact Or.inl hk
    · exact Or.inr (ih hn)

theorem markupLinesOf_append (size : Int) (level : Nat) (ks ms : List Node) :
    markupLinesOf size level (ks ++ ms) =
      markupLinesOf size level ks ++ markupLinesOf size level ms := by
  induction ks with
  | nil => rfl
  | cons k ks ih => rw [List.cons_append, markupLinesOf, markupLinesOf, ih, List.append_assoc]

theorem infix_markupLinesOf (h : k ∈ ks) (size : Int) (level : Nat) :
    markupLines size level k <:+: markupLinesOf size level ks := by
  induction ks with
  | nil => cases h
  | cons k' ks ih =>
    rw [markupLinesOf]
    rcases List.mem_cons.mp h with rfl | h
    · exact (List.prefix_append _ _).isInfix
    · exact (ih h).trans (List.suffix_append _ _).isInfix

theorem infix_bodyLines (h : k ∈ b.children) (size : Int) (level : Nat) :
    markupLines size level k <:+: bodyLines size level b := by
  obtain ⟨test, children⟩ := b
  cases children with
  | nil => cases h
  | cons k' ks =>
    rw [bodyLines]
    exact infix_markupLinesOf h size level

/-- The lines of a body, from the one that its opening parenthesis ends to the one that starts with
its closing parenthesis. -/
def bracketed (size : Int) (level : Nat) (b : Branch Node) (front back : Text) : List Text :=
  (front ++ ['(']) :: (bodyLines size (level + 1) b ++ [indentation size level ++ ')' :: back])

theorem infix_bracketed (size : Int) (level : Nat) (b : Branch Node) (front back : Text) :
    bodyLines size (level + 1) b <:+: bracketed size level b front back :=
  ⟨[front ++ ['(']], [indentation size level ++ ')' :: back], rfl⟩

/-- The body of the first branch stands in front of the choices between the others. -/
theorem exists_choiceLines (b : Branch Node) (bs : List (Branch Node)) (size : Int) (level : Nat)
    (tested : Bool) : ∃ front rest tested',
      choiceLines size level tested (b :: bs) = bracketed size (level + 1) b front [] ++ rest ∧
      (bs ≠ [] → rest = choiceLines size level tested' bs) := by
  obtain ⟨inner, hinner⟩ : ∃ inner, inner = indentation size (level + 1) := ⟨_, rfl⟩
  simp only [choiceLines, bracketed, ← hinner]
  cases b.guard? with
  | none =>
    exact ⟨inner ++ [':', ' '], choiceLines size level tested bs, tested, by simp, fun _ => rfl⟩
  | some test =>
    refine ⟨inner ++ (if tested then [':', ' '] else []) ++ test ++ [' ', '?', ' '],
      if bs.isEmpty then [inner ++ [':', ' ', 'n', 'u', 'l', 'l']]
        else choiceLines size level true bs, true, by simp, fun hne => ?_⟩
    rw [if_neg (by simpa using hne)]

theorem infix_choiceLines (h : b ∈ bs) (size : Int) (level : Nat) (tested : Bool) :
    ∃ front, bracketed size (level + 1) b front [] <:+: choiceLines size level tested bs := by
  induction bs generalizing tested with
  | nil => cases h
  | cons b' bs ih =>
    obtain ⟨front, rest, tested', hlines, hrest⟩ := exists_choiceLines b' bs size level tested
    rw [hlines]
    rcases List.mem_cons.mp h with rfl | h
    · exact ⟨front, (List.prefix_append _ _).isInfix⟩
    · obtain ⟨front', hwithin⟩ := ih h tested'
      rw [hrest (List.ne_nil_of_mem h)]
      exact ⟨front', hwithin.trans (List.suffix_append _ _).isInfix⟩

/-- The body of a branch stands between parentheses among the lines of its conditional. -/
theorem exists_infix_body (h : b ∈ bs) (size : Int) (level : Nat) :
    ∃ level' front back,
      bracketed size level' b front back <:+: markupLines size level (.conditional bs) := by
  cases honly : onlyGuard? bs with
  | none =>
    obtain ⟨front, hwithin⟩ := infix_choiceLines h size level false
    refine ⟨level + 1, front, [], ?_⟩
    rw [markupLines_choices (List.ne_nil_of_mem h) honly]
    exact hwithin.trans
      ⟨[indentation size level ++ ['{']], [indentation size level ++ ['}']], rfl⟩
  | some test =>
    refine ⟨level, indentation size level ++ '{' :: test ++ [' ', '&', '&', ' '], ['}'], ?_⟩
    match bs, h, honly with
    | [b'], h, honly =>
      obtain rfl := List.mem_singleton.mp h
      rw [markupLines, honly]
      · simp [bracketed, firstBodyLines]
      · simp

/-- A child that takes lines of its own keeps its parent from taking one line only. -/
theorem inlineRun?_eq_none (hk : k ∈ ks) (h : inlineChild? k = none) : inlineRun? ks = none := by
  have hparts : ks.mapM inlineChild? = none := by
    induction ks with
    | nil => cases hk
    | cons k' ks ih =>
      rw [List.mapM_cons]
      rcases List.mem_cons.mp hk with rfl | hk
      · rw [h]
        rfl
      · rw [ih hk]
        cases inlineChild? k' <;> rfl
  rw [inlineRun?, hparts]
  rfl

theorem infix_element (hk : k ∈ ks) (h : inlineChild? k = none) (size : Int) (level : Nat)
    (tag : Text) (classes : List Text) (attributes : List Attribute) :
    markupLines size (level + 1) k <:+:
      markupLines size level (.element tag classes attributes ks) := by
  rw [markupLines]
  · rw [inlineRun?_eq_none hk h]
    exact (infix_markupLinesOf hk size (level + 1)).trans ⟨[_], [_], rfl⟩
  · exact List.ne_nil_of_mem hk

theorem exists_infix_document (hk : k ∈ ks) (size : Int) :
    ∃ level, markupLines size level k <:+: markupDocument size ks := by
  match ks, hk with
  | [k'], hk =>
    obtain rfl := List.mem_singleton.mp hk
    exact ⟨0, List.infix_rfl⟩
  | k' :: k'' :: ks, hk =>
    exact ⟨1, (infix_markupLinesOf hk size 1).trans ⟨[['<', '>']], [['<', '/', '>']], rfl⟩⟩

/-- The lines of a conditional stand among those of what it is in, which is one node that takes
lines of its own. -/
theorem exists_infix_of_inside {branches : List (Offside.Branch Offside.Node)}
    {span : Option Span} (h : Offside.Node.Inside false (.conditional branches span) n)
    (env : AliasEnv) (size : Int) : ∃ k, lower env n = [k] ∧ inlineChild? k = none ∧
      ∀ level, ∃ level', markupLines size level' (.conditional (lowerBranches env branches)) <:+:
        markupLines size level k := by
  induction h with
  | here => exact ⟨_, rfl, rfl, fun level => ⟨level, List.infix_rfl⟩⟩
  | @element name classes children span n hmem _ ih =>
    obtain ⟨k, hk, hinline, hlines⟩ := ih
    have hchild : k ∈ lowerList env children := mem_lowerList hmem (by simp [hk])
    refine ⟨_, rfl, rfl, fun level => ?_⟩
    obtain ⟨level', hlevel⟩ := hlines (level + 1)
    exact ⟨level', hlevel.trans (infix_element hchild hinline size level _ _ _)⟩
  | @branch branches' span b n hb hmem _ ih =>
    obtain ⟨k, hk, -, hlines⟩ := ih
    have hbranch : lowerBranch env b ∈ lowerBranches env branches' := by
      rw [lowerBranches_eq_map]
      exact List.mem_map_of_mem hb
    have hchild : k ∈ (lowerBranch env b).children := by
      obtain ⟨test, body, span⟩ := b
      exact mem_lowerList hmem (by simp [hk])
    refine ⟨_, rfl, rfl, fun level => ?_⟩
    obtain ⟨inner, front, back, hbody⟩ := exists_infix_body hbranch size level
    obtain ⟨level', hlevel⟩ := hlines (inner + 1)
    have hinside := hlevel.trans (infix_bodyLines hchild size (inner + 1))
    exact ⟨level', (hinside.trans (infix_bracketed size inner _ front back)).trans hbody⟩
  | loop hloops => cases hloops

/-! ## The conditionals of a template -/

/-- The branches of a template as they are exported. -/
def exportedBranches (t : Template) (branches : List (Offside.Branch Offside.Node)) :
    List (Branch Node) :=
  lowerBranches (AliasEnv.ofBlock t.aliases) branches

/-- What is written of branches, the bodies apart, is an expression. -/
def ReadsAs (size : Int) (level : Nat) (bs : List (Branch Node)) (c : Script.Conditional) : Prop :=
  Script.lexBraced (bs.map (bodyLines size (level + 2)))
    (markupLines size level (.conditional bs)) = some c.lexemes

theorem guard?_lowerBranch {b : Offside.Branch Offside.Node} (h : ∀ test ∈ b.test, test ≠ [])
    (env : AliasEnv) : (lowerBranch env b).guard? = b.test := by
  obtain ⟨test, body, span⟩ := b
  cases test with
  | none => rfl
  | some s => simpa [lowerBranch, Branch.guard?, Option.filter] using h s rfl

theorem guards_exportedBranches {branches : List (Offside.Branch Offside.Node)}
    (h : ∀ b ∈ branches, ∀ test ∈ b.test, test ≠ []) (t : Template) :
    (exportedBranches t branches).map Branch.guard? = branches.map Offside.Branch.test := by
  rw [exportedBranches, lowerBranches_eq_map, List.map_map]
  exact List.map_congr_left fun b hb => guard?_lowerBranch (h b hb) _

variable {s : Text} {branches : List (Offside.Branch Offside.Node)} {span : Option Span}

/-- Branches as they stand in a template whose tests can be read. -/
theorem chained_of_wellFormed (h : (Offside.Node.conditional branches span).WellFormed)
    (htests : ∀ b ∈ branches, ∀ test ∈ b.test, condition? (some test) ≠ none) :
    Chained (branches.map Offside.Branch.test) := by
  cases h with
  | conditional _ _ _ hlast _ _ =>
    constructor
    case readable =>
      intro test htest hne
      obtain ⟨b, hb, rfl⟩ := List.mem_map.mp htest
      obtain ⟨v, hv⟩ := Option.ne_none_iff_exists'.mp hne
      rw [hv]
      exact htests b hb v hv
    case tested =>
      intro test htest
      rw [← List.map_dropLast] at htest
      obtain ⟨b, hb, rfl⟩ := List.mem_map.mp htest
      exact hlast b hb

/-- What is written of several branches that are well formed is the chain of them, and no other
expression. -/
theorem readsAs_iff (h : (Offside.Node.conditional branches span).WellFormed)
    (htwo : 2 ≤ branches.length)
    (htests : ∀ b ∈ branches, ∀ test ∈ b.test, condition? (some test) ≠ none) (t : Template)
    (size : Int) (level : Nat) (c : Script.Conditional) :
    ReadsAs size level (exportedBranches t branches) c ↔
      c = chain 0 (branches.map Offside.Branch.test) := by
  have hchained := chained_of_wellFormed h htests
  cases h with
  | conditional _ htrim hfirst _ _ _ =>
    have hguards := guards_exportedBranches (fun b hb test ht => (htrim b hb test ht).ne_nil) t
    have hlength : 2 ≤ (exportedBranches t branches).length := by
      rw [exportedBranches, lowerBranches_eq_map, List.length_map]
      exact htwo
    have hhead : ∀ b ∈ (exportedBranches t branches).head?, b.guard? ≠ none := by
      intro b hb
      have hguard : b.guard? ∈ (branches.map Offside.Branch.test).head? := by
        rw [← hguards, List.head?_map]
        exact Option.mem_map_of_mem _ hb
      rw [List.head?_map] at hguard
      obtain ⟨b', hb', hb'test⟩ := Option.mem_map.mp hguard
      rw [← hb'test]
      exact hfirst b' hb'
    rw [ReadsAs, lexBraced_conditional (hguards ▸ hchained) hlength hhead, hguards]

/-- A node outside of all loops has its lines in the markup. -/
theorem exists_infix_output (hclean : (Template.read s).diagnostics = [])
    (hin : ∃ n ∈ (Template.read s).template.children,
      Offside.Node.Inside false (.conditional branches span) n)
    (target : Option Target) (o : ExportOptions) : ∃ level lines,
      (exportTemplate s target o).output = unlines lines ++ ['\n'] ∧
        markupLines o.indentSize level
          (.conditional (exportedBranches (Template.read s).template branches)) <:+: lines := by
  obtain ⟨n, hn, hinside⟩ := hin
  obtain ⟨k, hk, -, hlines⟩ := exists_infix_of_inside hinside
    (AliasEnv.ofBlock (Template.read s).template.aliases) o.indentSize
  have hchild : k ∈ ofTemplate (Template.read s).template := by
    rw [ofTemplate, List.mem_append]
    exact Or.inr (mem_lowerList hn (by simp [hk]))
  obtain ⟨outer, hdocument⟩ := exists_infix_document hchild o.indentSize
  obtain ⟨level, hlevel⟩ := hlines outer
  exact ⟨level, _, output_exportTemplate hclean target o, hlevel.trans hdocument⟩

/-- Several branches keep their meaning when they are exported. What is written of them is one
expression and no other, each body has its place in it, in their order, and it comes to the body of
the first branch whose test is true, or else to that of the branch without a test, or else to
nothing. These lines are in the markup unless the branches are in a loop, which is left out. -/
theorem exported_conditional_value (hclean : (Template.read s).diagnostics = [])
    (hin : ∃ n ∈ (Template.read s).template.children,
      Offside.Node.Inside true (.conditional branches span) n)
    (htwo : 2 ≤ branches.length)
    (htests : ∀ b ∈ branches, ∀ test ∈ b.test, condition? (some test) ≠ none)
    (target : Option Target) (o : ExportOptions) :
    (∀ level, ∃ c, (∀ c', ReadsAs o.indentSize level
        (exportedBranches (Template.read s).template branches) c' ↔ c' = c) ∧
      c.bodies = List.range branches.length ∧
      ∀ ρ, c.value ρ = (shown? ρ (branches.map Offside.Branch.test)).elim .nothing .body) ∧
    ((∃ n ∈ (Template.read s).template.children,
        Offside.Node.Inside false (.conditional branches span) n) → ∃ level lines,
      (exportTemplate s target o).output = unlines lines ++ ['\n'] ∧
        markupLines o.indentSize level
          (.conditional (exportedBranches (Template.read s).template branches)) <:+: lines) := by
  obtain ⟨n, hn, hinside⟩ := hin
  have hwell := hinside.wellFormed ((Template.wellFormed_read s).children n hn).1
  have hchained := chained_of_wellFormed hwell htests
  refine ⟨fun level => ⟨chain 0 (branches.map Offside.Branch.test),
    readsAs_iff hwell htwo htests _ o.indentSize level, ?_, fun ρ => ?_⟩,
    fun houtside => exists_infix_output hclean houtside target o⟩
  · rw [bodies_chain hchained, List.length_map, List.range_eq_range']
  · rw [value_chain hchained]
    rfl

/-- Two branches in an element, and no last resort. -/
def elseIfSource : Text := "div\n  @if (a)\n    p\n  @elseIf (!b || c)\n    q\n".toList

/-- The tests of a conditional that is alone in an element that is alone. -/
def onlyTests : List Offside.Node → List (Option Text)
  | [.element _ _ [.conditional branches _] _] => branches.map Offside.Branch.test
  | _ => []

theorem exists_inside_of_onlyTests {test : Option Text} {tests : List (Option Text)}
    (h : onlyTests ns = test :: tests) : ∃ branches span,
      (∃ n ∈ ns, Offside.Node.Inside true (.conditional branches span) n) ∧
        branches.map Offside.Branch.test = test :: tests := by
  rw [onlyTests.eq_def] at h
  split at h
  · exact ⟨_, _, ⟨_, List.mem_cons_self, .element List.mem_cons_self .here⟩, h⟩
  · cases h

/-- The second branch is shown if neither name is true, and with only `b` true none is. -/
theorem exported_conditional_value_elseIfSource : ∃ branches span,
    (∃ n ∈ (Template.read elseIfSource).template.children,
      Offside.Node.Inside true (.conditional branches span) n) ∧
    branches.map Offside.Branch.test = [some ['a'], some "!b || c".toList] ∧
    ∃ c, ReadsAs 2 1 (exportedBranches (Template.read elseIfSource).template branches) c ∧
      c.value ⟨fun _ => false, true⟩ = .body 1 ∧ c.value ⟨(· == ['b']), true⟩ = .nothing := by
  have hfirst : condition? (some ['a']) ≠ none := nofun
  have hsecond : condition? (some "!b || c".toList) ≠ none := nofun
  have hclean : (Template.read elseIfSource).diagnostics = [] := by decide +kernel
  have hshape : onlyTests (Template.read elseIfSource).template.children =
      [some ['a'], some "!b || c".toList] := by decide +kernel
  obtain ⟨branches, span, hin, htests⟩ := exists_inside_of_onlyTests hshape
  have htwo : 2 ≤ branches.length := by
    rw [← List.length_map Offside.Branch.test, htests]
    decide
  have hreadable : ∀ b ∈ branches, ∀ test ∈ b.test, condition? (some test) ≠ none := by
    intro b hb test htest
    have hmem : some test ∈ branches.map Offside.Branch.test :=
      List.mem_map.mpr ⟨b, hb, htest⟩
    rw [htests] at hmem
    rcases List.mem_cons.mp hmem with h | hmem
    · rw [h]
      exact hfirst
    · rw [List.mem_singleton.mp hmem]
      exact hsecond
  obtain ⟨c, hreads, -, hvalue⟩ :=
    (exported_conditional_value hclean hin htwo hreadable none {}).1 1
  refine ⟨branches, span, hin, htests, c, (hreads c).mpr rfl, ?_, ?_⟩
  · rw [hvalue, htests]
    rfl
  · rw [hvalue, htests]
    rfl

end Ir

end Offside
