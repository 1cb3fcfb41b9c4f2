import Offside.Proofs.Template.Follows
import Offside.Proofs.Template.Layout

/-! Texts put together. Behind another text, and below a line that opens, a text without a header is
read as it is read on its own. -/
namespace Offside

open Text

namespace Outliner

variable {s : Outliner} {n : Node} {e : Text} {l : Line} {sp : Option Span}

/-! ## The span of the whole text -/

/-- The same state, for a text with another span. -/
def respan (s : Outliner) (span : Option Span) : Outliner := { s with template.span := span }

/-- What a line does does not depend on the span of the whole text. -/
theorem readKind_respan (s : Outliner) (span : Option Span) (m : Mark) (level : Nat) (line : Text)
    (kind : LineKind) :
    (s.respan span).readKind m level line kind = (s.readKind m level line kind).respan span := by
  have hraw : (s.respan span).template.rawId = s.template.rawId := rfl
  have hprops : (s.respan span).template.props = s.template.props := rfl
  have haliases : (s.respan span).template.aliases = s.template.aliases := rfl
  have hchildren : (s.respan span).template.children = s.template.children := rfl
  have hchain : (s.respan span).chainAt? level = s.chainAt? level := rfl
  cases kind with
  | id =>
    simp only [readKind, readId, hraw]
    repeat' split
    all_goals rfl
  | props =>
    simp only [readKind, openProps, hprops, hchildren]
    repeat' split
    all_goals rfl
  | classes =>
    simp only [readKind, openClasses, haliases, hchildren]
    repeat' split
    all_goals rfl
  | ifLine =>
    simp only [readKind, readIf, pushBranch_eq]
    split <;> rfl
  | elseIf =>
    simp only [readKind, readElseIf, hchain, addBranch, pushBranch_eq]
    repeat' split
    all_goals rfl
  | elseLine =>
    simp only [readKind, readElse, hchain, addBranch, pushBranch_eq]
    repeat' split
    all_goals rfl
  | forLine =>
    simp only [readKind, readLoop]
    split <;> rfl
  | pipe => rfl
  | expression =>
    simp only [readKind]
    split <;> rfl
  | element =>
    simp only [readKind]
    split <;> rfl

theorem readBody_respan (s : Outliner) (span : Option Span) (m : Mark) (level : Nat) (line : Text) :
    (s.respan span).readBody m level line = (s.readBody m level line).respan span := by
  simp only [readBody]
  have hnext : (s.respan span).nextLevel = s.nextLevel := rfl
  have hreport : (s.respan span).report m .indentJump 1 =
    (s.report m .indentJump 1).respan span := rfl
  rw [hnext, hreport]
  split
  · exact readKind_respan ((s.report m .indentJump 1).settle _ _) span m _ line _
  · exact readKind_respan (s.settle _ _) span m _ line _

/-- No line looks at the span of the whole text. -/
theorem step_respan (s : Outliner) (span : Option Span) (l : Line) :
    (s.respan span).step l = (s.step l).respan span := by
  rw [step, step]
  split
  · rfl
  · rfl
  · rfl
  · next level c hmargin =>
    simp only [readLevel]
    have hp : ((s.respan span).closeHeaders level).propsLevel =
      (s.closeHeaders level).propsLevel := rfl
    have hc : ((s.respan span).closeHeaders level).classesLevel =
      (s.closeHeaders level).classesLevel := rfl
    rw [hp, hc]
    split
    · rw [readField, readField]
      split
      · rfl
      · split <;> rfl
    · rw [readAlias, readAlias]
      split
      · rfl
      · split <;> rfl
    · exact readBody_respan (s.closeHeaders level) span _ level c

/-- A whole run does not look at it either. -/
theorem foldl_respan (s : Outliner) (span : Option Span) (ls : List Line) :
    ls.foldl step (s.respan span) = (ls.foldl step s).respan span := by
  induction ls generalizing s with
  | nil => rfl
  | cons l ls ih => rw [List.foldl_cons, List.foldl_cons, step_respan, ih]

/-! ## Lines that open -/

/-- Whether lines below go into an entry does not depend on spans. -/
theorem opens_bare (e : Entry) : e.bare.opens = e.opens := by
  cases e with
  | node n =>
    cases n with
    | conditional bs span =>
      have hall : ∀ bs : List (Branch Node), (Node.bareBranches bs).all (·.body.isEmpty) =
          bs.all (·.body.isEmpty) := by
        intro bs
        induction bs with
        | nil => rfl
        | cons b bs ih =>
          obtain ⟨test, body, span⟩ := b
          rw [Node.bareBranches, List.all_cons, List.all_cons, ih, Node.bareBranch,
            Node.isEmpty_bareList]
      exact hall bs
    | _ => rfl
  | branch b =>
    obtain ⟨test, body, span⟩ := b
    exact Node.isEmpty_bareList body

/-- A first line that gives a node is no header. -/
theorem headless_first (hl : Unbroken l.text) (hn : ((start sp).step l).template.children = [n]) :
    ((start sp).step l).template.Headless := by
  have hs : (start sp).Sound fun _ => True := sound_start sp
  have ht := transition_step hs.leveled hl (yields_true ((start sp).step l).diagnostics)
  have hlost : ∀ {t : Outliner}, t.template = (start sp).template → t.template.children ≠ [n] := by
    intro t ht hn
    rw [ht] at hn
    cases hn
  generalize (start sp).step l = t at ht hn
  cases ht with
  | blank _ => cases hn
  | dropped ht _ _ => exact (hlost ht.template hn).elim
  | id hp _ _ _ _ _ => exact (hlost hp.narrows.template hn).elim
  | props hp _ _ _ _ => exact (hlost hp.narrows.template hn).elim
  | classes hp _ _ _ _ => exact (hlost hp.narrows.template hn).elim
  | field ht _ _ _ _ _ => exact (hlost ht.template hn).elim
  | classAlias ht _ _ _ _ _ _ => exact (hlost ht.template hn).elim
  | entry hp _ _ _ _ _ =>
    have htemplate := hp.narrows.template
    exact ⟨congrArg Template.rawId htemplate, congrArg Template.props htemplate,
      congrArg Template.aliases htemplate⟩

/-- The first line of a text that gives an open node leaves it open. -/
theorem ready_first (hl : Unbroken l.text) (hnil : ((start sp).step l).diagnostics = [])
    (hn : ((start sp).step l).template.children = [n]) (hopens : (Entry.node n).opens = true) :
    ((start sp).step l).Ready 1 := by
  have hs : (start sp).Sound fun _ => True := sound_start sp
  rcases exists_entry hs hl hnil (headless_first hl hn) with
    hblank | ⟨level, c, e, hmargin, hready, hsay, hfits⟩
  · rw [step, Margin.ofLine_blank.mpr hblank] at hn
    cases hn
  obtain rfl : level = 0 := Nat.le_zero.mp hready.level_le
  obtain ⟨e', he', hfits', hstep⟩ := step_saying hsay hready hfits hmargin
  obtain ⟨hleveled, hframes, hprops, hclasses⟩ := hready.ended c
  have henters : Enters 0 e' e.opens ((start sp).ended 0 c)
      (((start sp).ended 0 c).enter 0 e' e.opens) :=
    enters_enter hleveled hframes hprops hclasses hfits'
  rw [hstep] at hn ⊢
  refine henters.ready ?_
  cases e' with
  | node n' =>
    obtain rfl : n' = n := List.head_eq_of_cons_eq hn
    rw [← opens_bare, ← he', opens_bare, hopens]
  | branch b => cases hn

end Outliner

namespace Template

/-- A text behind another one is read from where the other one has come to. -/
theorem exists_outline_append (a u : Text) : ∃ (ls : List Line) (span : Option Span),
    ls.map Line.text = Text.lines (unifyNewlines u) ∧
      outline (unifyNewlines (a ++ '\n' :: u)) =
        ls.foldl Outliner.step ((outline (unifyNewlines a)).respan span) := by
  obtain ⟨l, ls, ha, hau⟩ := lines_append a u
  have houtline : outline (unifyNewlines a) = (Line.numberFrom 1 0 (l :: ls)).foldl Outliner.step
      (Outliner.start (some (wholeSpan (unifyNewlines a)))) := by
    rw [outline, Line.ofText]
    rcases ha with ha | ha
    · rw [ha]
    · obtain ⟨number, offset, hlast⟩ := Line.numberFrom_append 1 0 (l :: ls) [[]]
      rw [ha, hlast, List.foldl_append]
      rfl
  obtain ⟨number, offset, hlines⟩ :=
    Line.numberFrom_append 1 0 (l :: ls) (Text.lines (unifyNewlines u))
  obtain ⟨span, hspan⟩ : ∃ span, span = some (wholeSpan (unifyNewlines (a ++ '\n' :: u))) :=
    ⟨_, rfl⟩
  refine ⟨Line.numberFrom number offset (Text.lines (unifyNewlines u)), span,
    Line.map_text_numberFrom .., ?_⟩
  rw [outline, Line.ofText, hau, hlines, List.foldl_append, houtline, ← Outliner.foldl_respan,
    hspan]
  rfl

variable {a b s t u e : Text} {n : Node} {δ : Nat}

/-- The text is read without a report, as the given template. -/
def ReadsAs (s : Text) (t : Template) : Prop :=
  (read s).diagnostics = [] ∧ (read s).template.same t = true

/-- The second text has the lines of the first, with all that have content one level deeper. -/
def Deeper (t u : Text) : Prop :=
  Text.lines (unifyNewlines u) = (Text.lines (unifyNewlines t)).map (Margin.deepen 1)

theorem emptyBodies_eq_nil_iff {t : Template} : t.emptyBodies = [] ↔
    Node.emptyBranchesIn t.children = [] ∧ Node.emptyLoopsIn t.children = [] := by
  simp [emptyBodies]

/-- A text is read without a report if no line is reported and no body is missing. -/
theorem diagnostics_eq_nil_iff : (read s).diagnostics = [] ↔
    (outline (unifyNewlines s)).diagnostics = [] ∧
      Node.emptyBranchesIn (read s).template.children = [] ∧
      Node.emptyLoopsIn (read s).template.children = [] := by
  have hread : (read s).diagnostics =
      (outline (unifyNewlines s)).diagnostics ++ (read s).template.emptyBodies := rfl
  rw [hread, List.append_eq_nil_iff, emptyBodies_eq_nil_iff]

theorem bareList_modifyAt_append {ms ns : List Node} (h : Node.bareList ms = Node.bareList ns)
    (d : Nat) (ks : List Node) : Node.bareList (Outline.modifyAt (· ++ ms) d ks) =
      Node.bareList (Outline.modifyAt (· ++ ns) d ks) := by
  have happend : ∀ ms : List Node, Node.bareList (Outline.modifyAt (· ++ ms) d ks) =
      Outline.modifyAt (· ++ Node.bareList ms) d (Node.bareList ks) :=
    fun ms => Node.bareList_modifyAt (fun ks => Node.bareList_append ks ms) d ks
  rw [happend ms, happend ns, h]

/-- A text without a header, read behind another one or below its open edge. -/
theorem readsAs_append (ha : (outline (unifyNewlines a)).diagnostics = [])
    (hready : (outline (unifyNewlines a)).Ready δ) (hb : (read b).diagnostics = [])
    (hhead : (read b).template.Headless)
    (hu : Text.lines (unifyNewlines u) = (Text.lines (unifyNewlines b)).map (Margin.deepen δ))
    {ns : List Node} (hns : ns =
      Outline.modifyAt (· ++ (read b).template.children) δ (read a).template.children)
    (hfull : Node.emptyBranchesIn ns = [] ∧ Node.emptyLoopsIn ns = []) :
    ReadsAs (a ++ '\n' :: u) { (read a).template with children := ns } := by
  obtain ⟨ls, span, hls, houtline⟩ := exists_outline_append a u
  have hready' : ((outline (unifyNewlines a)).respan span).Ready δ :=
    ⟨⟨hready.leveled.frames, hready.leveled.chains⟩, hready.level_le, hready.props, hready.classes⟩
  have hmoved : ls.map Line.text =
      (Line.ofText (unifyNewlines b)).map fun l => Margin.deepen δ l.text := by
    rw [hls, hu, ← Function.comp_def, ← List.map_map, Line.ofText, Line.map_text_numberFrom]
  have hfollows := Outliner.follows_run
    (Outliner.follows_start hready' (some (wholeSpan (unifyNewlines b)))) (Outliner.sound_start _)
    (unbroken_ofText b) hmoved (List.append_eq_nil_iff.mp hb).1 hhead
  rw [← houtline] at hfollows
  obtain ⟨ms, hms, htemplate⟩ := hfollows.template
  have hbare : (read (a ++ '\n' :: u)).template.bare =
      { (read a).template with children := ns }.bare := by
    have hgrown : Node.bareList (Outline.modifyAt (· ++ ms) δ (read a).template.children) =
        Node.bareList ns := hns ▸ bareList_modifyAt_append hms δ _
    have hread : (read (a ++ '\n' :: u)).template =
        (outline (unifyNewlines (a ++ '\n' :: u))).template := rfl
    rw [hread, htemplate]
    exact bare_eq_iff.mpr ⟨rfl, hgrown⟩
  have hempty : (read (a ++ '\n' :: u)).template.emptyBodies = [] :=
    emptyBodies_eq_nil hbare (emptyBodies_eq_nil_iff.mpr hfull)
  constructor
  · exact diagnostics_eq_nil_iff.mpr
      ⟨hfollows.diagnostics.trans ha, emptyBodies_eq_nil_iff.mp hempty⟩
  · exact (same_iff _ _).mpr hbare

/-- A text without a header, read behind any other text. -/
theorem readsAs_behind (ha : (read a).diagnostics = []) (hb : (read b).diagnostics = [])
    (hhead : (read b).template.Headless) : ReadsAs (a ++ '\n' :: b)
      { (read a).template with
        children := (read a).template.children ++ (read b).template.children } := by
  obtain ⟨hquiet, hbranches, hloops⟩ := diagnostics_eq_nil_iff.mp ha
  obtain ⟨-, hbranches', hloops'⟩ := diagnostics_eq_nil_iff.mp hb
  have hsound : (outline (unifyNewlines a)).Sound fun _ => True :=
    sound_outline (Outliner.yields_true _)
  have hready : (outline (unifyNewlines a)).Ready 0 :=
    ⟨hsound.leveled, Nat.zero_le _, fun _ _ => Nat.zero_le _, fun _ _ => Nat.zero_le _⟩
  have hlines : Text.lines (unifyNewlines b) =
      (Text.lines (unifyNewlines b)).map (Margin.deepen 0) := by
    rw [funext Margin.deepen_zero]
    exact (List.map_id _).symm
  refine readsAs_append hquiet hready hb hhead hlines rfl ?_
  simp [hbranches, hloops, hbranches', hloops']

/-- A text without a header, read below a line that opens. -/
theorem readsAs_below (he : Unbroken e) (hnil : (outline (unifyNewlines e)).diagnostics = [])
    (hn : (read e).template.children = [n]) (hopens : (Entry.node n).opens = true)
    (hb : (read b).diagnostics = []) (hhead : (read b).template.Headless) (hu : Deeper b u)
    (hfull : Node.emptyBranchesIn [n.mapBody (· ++ (read b).template.children)] = [] ∧
      Node.emptyLoopsIn [n.mapBody (· ++ (read b).template.children)] = []) :
    ReadsAs (e ++ '\n' :: u) { (read e).template with
      children := [n.mapBody (· ++ (read b).template.children)] } := by
  have hlines : Text.lines (unifyNewlines e) = [e] := by
    rw [unifyNewlines_of_not_mem fun hr => (he _ hr).2 rfl]
    exact splitWhen_of_all_neg he.line_feed
  have houtline : outline (unifyNewlines e) =
      (Outliner.start (some (wholeSpan (unifyNewlines e)))).step ⟨1, 0, e⟩ := by
    rw [outline, Line.ofText, hlines]
    rfl
  have hready : (outline (unifyNewlines e)).Ready 1 := by
    have hn' : (outline (unifyNewlines e)).template.children = [n] := hn
    rw [houtline] at hnil hn' ⊢
    exact Outliner.ready_first he hnil hn' hopens
  refine readsAs_append hnil hready hb hhead hu ?_ hfull
  rw [hn]
  rfl

/-- Reading is compositional. Let a text without a header be read without a report. Behind any text
that is read so its nodes come last, and one level below a line that is read as an element, a loop
or a conditional with one open branch its nodes become the last ones of the body. -/
theorem read_composed (hb : (read b).diagnostics = []) (hhead : (read b).template.Headless) :
    (∀ a, (read a).diagnostics = [] → ReadsAs (a ++ '\n' :: b)
      { (read a).template with
        children := (read a).template.children ++ (read b).template.children }) ∧
    ∀ e u, Unbroken e → Deeper b u →
      (∀ name classes children span, (read e).diagnostics = [] →
        (read e).template.children = [.element name classes children span] →
        ReadsAs (e ++ '\n' :: u) { (read e).template with
          children := [.element name classes (children ++ (read b).template.children) span] }) ∧
      ((read b).template.children ≠ [] → (read e).diagnostics = (read e).template.emptyBodies →
        (∀ v i span, (read e).template.children = [.loop v i [] span] →
          ReadsAs (e ++ '\n' :: u) { (read e).template with
            children := [.loop v i (read b).template.children span] }) ∧
        (∀ test branchSpan span,
          (read e).template.children = [.conditional [⟨test, [], branchSpan⟩] span] →
          ReadsAs (e ++ '\n' :: u) { (read e).template with
            children :=
              [.conditional [⟨test, (read b).template.children, branchSpan⟩] span] })) := by
  obtain ⟨-, hbranches, hloops⟩ := diagnostics_eq_nil_iff.mp hb
  constructor
  · intro a ha
    exact readsAs_behind ha hb hhead
  intro e u he hu
  constructor
  · intro name classes children span hnil hn
    obtain ⟨hquiet, hbranches', hloops'⟩ := diagnostics_eq_nil_iff.mp hnil
    rw [hn] at hbranches' hloops'
    refine readsAs_below he hquiet hn rfl hb hhead hu ?_
    simp_all [Node.mapBody, Node.emptyBranchesIn, Node.emptyLoopsIn, Node.emptyBranches,
      Node.emptyLoops]
  intro hne hempty
  have hquiet : (outline (unifyNewlines e)).diagnostics = [] := List.append_left_eq_self.mp hempty
  constructor
  · intro v i span hn
    refine readsAs_below he hquiet hn rfl hb hhead hu ?_
    simp [Node.mapBody, Node.emptyBranchesIn, Node.emptyLoopsIn, Node.emptyBranches,
      Node.emptyLoops, hbranches, hloops, hne]
  · intro test branchSpan span hn
    refine readsAs_below he hquiet hn rfl hb hhead hu ?_
    simp [Node.mapBody, onLast, Branch.mapBody, Node.emptyBranchesIn, Node.emptyLoopsIn,
      Node.emptyBranches, Node.emptyLoops, Node.emptyBranchesOf, Node.emptyLoopsOf,
      Node.emptyBranchesAt, Node.emptyLoopsAt, hbranches, hloops, hne]

/-- A text without a header, with a conditional of two branches. -/
def branchesSource : Text := "@if (x)\n  q\n@else\n  r".toList

/-- The same, one level deeper. -/
def deeperSource : Text := "  @if (x)\n    q\n  @else\n    r".toList

/-- A text with a header and open edges, and lines that open: an element, a loop, a conditional. -/
def titledSource : Text := "#id n\np\n  @if (y)\n    b".toList

@[inherit_doc titledSource]
def elementSource : Text := ['p', ' ', '|', ' ', 't']

@[inherit_doc titledSource]
def loopSource : Text := ['@', 'f', 'o', 'r', ' ', 'x', ' ', 'i', 'n', ' ', 'x', 's']

@[inherit_doc titledSource]
def ifSource : Text := ['@', 'i', 'f', ' ', '(', 'c', ')']

theorem read_composed_branchesSource :
    ReadsAs (titledSource ++ '\n' :: branchesSource)
        { (read titledSource).template with
          children := (read titledSource).template.children ++
            (read branchesSource).template.children } ∧
      (∃ textSpan span, ReadsAs (elementSource ++ '\n' :: deeperSource)
        { (read elementSource).template with
          children := [.element ['p'] [] ([.text [.literal ['t']] .inline textSpan] ++
            (read branchesSource).template.children) span] }) ∧
      (∃ span, ReadsAs (loopSource ++ '\n' :: deeperSource)
        { (read loopSource).template with
          children := [.loop ['x'] ['x', 's'] (read branchesSource).template.children span] }) ∧
      ∃ branchSpan span, ReadsAs (ifSource ++ '\n' :: deeperSource)
        { (read ifSource).template with
          children := [.conditional
            [⟨some ['c'], (read branchesSource).template.children, branchSpan⟩] span] } := by
  obtain ⟨hbehind, hbelow⟩ := read_composed (b := branchesSource) (by decide +kernel)
    ⟨by decide +kernel, by decide +kernel, by decide +kernel⟩
  have hne : (read branchesSource).template.children ≠ [] := by
    intro h
    exact absurd (congrArg List.length h) (by decide +kernel)
  have hdeeper : Deeper branchesSource deeperSource := by
    rw [Deeper]
    decide +kernel
  have hif : ∃ branchSpan span, (read ifSource).template.children =
      [.conditional [⟨some ['c'], [], branchSpan⟩] span] := ⟨_, _, rfl⟩
  have hloop : ∃ span, (read loopSource).template.children = [.loop ['x'] ['x', 's'] [] span] :=
    ⟨_, rfl⟩
  have helement : ∃ textSpan span, (read elementSource).template.children =
      [.element ['p'] [] [.text [.literal ['t']] .inline textSpan] span] :=
    ⟨some ⟨⟨1, 3, 2⟩, ⟨1, 6, 5⟩⟩, some ⟨⟨1, 1, 0⟩, ⟨1, 6, 5⟩⟩, rfl⟩
  refine ⟨hbehind _ (by decide +kernel), ?_, ?_, ?_⟩
  · obtain ⟨textSpan, span, hn⟩ := helement
    exact ⟨textSpan, span, (hbelow _ _ (by simp [Unbroken, elementSource]) hdeeper).1 _ _ _ _
      (by decide +kernel) hn⟩
  · obtain ⟨span, hn⟩ := hloop
    exact ⟨span, ((hbelow _ _ (by simp [Unbroken, loopSource]) hdeeper).2 hne rfl).1 _ _ _ hn⟩
  · obtain ⟨branchSpan, span, hn⟩ := hif
    exact ⟨branchSpan, span,
      ((hbelow _ _ (by simp [Unbroken, ifSource]) hdeeper).2 hne rfl).2 _ _ _ hn⟩

end Template

end Offside
