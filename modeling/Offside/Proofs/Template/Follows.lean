import Offside.Proofs.Template.Rebuild

/-! Reading a text behind other lines. While a text without a header is read on its own without a
report, the same lines, moved to the right by some levels, do the same to the list that is open that
deep: nothing that is open there leaks into them. -/
namespace Offside

open Text

/-- The template has no header. -/
structure Template.Headless (t : Template) : Prop where
  rawId : t.rawId = none
  props : t.props = none
  aliases : t.aliases = none

namespace Entry

variable {e e' : Entry}

theorem bareList_into (e : Entry) (ns : List Node) :
    Node.bareList (e.into ns) = e.bare.into (Node.bareList ns) := by
  cases e with
  | node n => simp [into, bare, Node.bareList]
  | branch b =>
    refine Node.bareList_onLast (fun n => ?_) ns
    cases n <;> simp [Node.addBranch, Node.bare, Node.bareBranches]

theorem bareList_modifyAt_into (he : e'.bare = e.bare) {ns ms : List Node}
    (hns : Node.bareList ns = Node.bareList ms) (d : Nat) :
    Node.bareList (Outline.modifyAt e'.into d ns) =
      Node.bareList (Outline.modifyAt e.into d ms) := by
  rw [Node.bareList_modifyAt e'.bareList_into, Node.bareList_modifyAt e.bareList_into, he, hns]

end Entry

namespace Outline

variable {e : Entry} {ns : List Node}

theorem onLast_append {f : Node → Node} (hns : ns ≠ []) (ms : List Node) :
    onLast f (ms ++ ns) = ms ++ onLast f ns := by
  obtain ⟨front, n, rfl⟩ := List.eq_nil_or_concat' ns |>.resolve_left hns
  rw [← List.append_assoc, onLast_concat, onLast_concat, List.append_assoc]

/-- An entry goes to the nodes that were read last. -/
theorem modifyAt_into_append {d : Nat} (h : ns = [] → d = 0 ∧ e.isBranch = false)
    (ms : List Node) : modifyAt e.into d (ms ++ ns) = ms ++ modifyAt e.into d ns := by
  cases d with
  | zero =>
    cases e with
    | node n => exact List.append_assoc ..
    | branch b => exact onLast_append (fun hns => Bool.noConfusion (h hns).2) ms
  | succ d => exact onLast_append (fun hns => Nat.noConfusion (h hns).1) ms

end Outline

namespace Outliner

variable {P Q : List Part → Prop} {s t t₀ : Outliner} {l l' : Line} {ls ls' : List Line}
  {δ level k : Nat} {e : Entry} {opens : Bool} {c : Text}

/-! ## Texts without a header -/

/-- No line takes the header away. -/
theorem Transition.headless (h : Transition P l s t) (ht : t.template.Headless) :
    s.template.Headless := by
  obtain ⟨hraw, hprops, haliases⟩ := ht
  cases h with
  | blank _ => exact ⟨hraw, hprops, haliases⟩
  | dropped ht _ _ => exact ht.template ▸ ⟨hraw, hprops, haliases⟩
  | id _ _ _ _ _ _ => cases hraw
  | props _ _ _ _ _ => cases hprops
  | classes _ _ _ _ _ => cases haliases
  | field ht _ _ _ _ _ =>
    refine ht.template ▸ ⟨hraw, ?_, haliases⟩
    exact Option.map_eq_none_iff.mp hprops
  | classAlias ht _ _ _ _ _ _ =>
    refine ht.template ▸ ⟨hraw, hprops, ?_⟩
    exact Option.map_eq_none_iff.mp haliases
  | entry hp _ _ _ _ _ =>
    have htemplate := hp.narrows.template
    exact htemplate ▸ ⟨hraw, hprops, haliases⟩

theorem headless_run (h : s.Leveled) (hl : ∀ l ∈ ls, Unbroken l.text)
    (hhead : (ls.foldl step s).template.Headless) : s.template.Headless := by
  induction ls generalizing s with
  | nil => exact hhead
  | cons l ls ih =>
    have hstep := transition_step h (hl l List.mem_cons_self) (yields_true _)
    exact hstep.headless (ih (hstep.leveled h) (fun k hk => hl k (List.mem_cons_of_mem l hk)) hhead)

/-- A line that is neither blank nor part of a header nor reported stands at an open level. -/
theorem exists_level (h : s.Sound P) (ht : Transition Q l s t) (hnil : t.diagnostics = [])
    (hhead : t.template.Headless) : Blank l.text ∨ ∃ level c,
      Margin.ofLine l.text = .level level c ∧ s.Ready level ∧
        (LineKind.ofText c).isHeader = false := by
  have hhead' := ht.headless hhead
  cases ht with
  | blank hb => exact Or.inl hb
  | dropped _ hne _ => exact (hne (List.append_eq_nil_iff.mp hnil).2).elim
  | id _ _ _ _ _ _ => cases hhead.rawId
  | props _ _ _ _ _ => cases hhead.props
  | classes _ _ _ _ _ => cases hhead.aliases
  | field ht hprops _ _ _ _ =>
    exact ((h.props _ (ht.propsLevel _ hprops)).2.1 hhead'.props).elim
  | classAlias ht hclasses _ _ _ _ _ =>
    exact ((h.classes _ (ht.classesLevel _ hclasses)).2.1 hhead'.aliases).elim
  | @entry t content jump ds level m e opens hp hk hm hread hbranch hnode =>
    obtain ⟨-, hds⟩ := List.append_eq_nil_iff.mp hnil
    obtain ⟨rfl, rfl⟩ := List.append_eq_nil_iff.mp hds
    obtain ⟨hmargin, hbase⟩ := hp.margin_of_nil
    have hlevel : level ≤ s.frames.length := by
      have := hp.narrows.length
      rwa [hp.frames, length_down] at this
    have hready : s.Ready level :=
      ⟨h.leveled, hlevel, fun base hb => hbase base (Or.inl hb),
        fun base hb => hbase base (Or.inr hb)⟩
    exact Or.inr ⟨level, content, hmargin, hready, hk⟩

/-! ## Lines that are moved -/

/-- The second state is what the first has come to, behind a given one and moved to the right by
`δ` levels. -/
structure Follows (δ : Nat) (t₀ s t : Outliner) : Prop where
  ready : t.Ready (s.frames.length + δ)
  chains : ∀ k c, s.chainAt? k = some c → c.hasElse = false →
    ∃ d, t.chainAt? (k + δ) = some d ∧ d.hasElse = false
  template : ∃ ns, Node.bareList ns = Node.bareList s.template.children ∧ t.template =
    { t₀.template with children := Outline.modifyAt (· ++ ns) δ t₀.template.children }
  diagnostics : t.diagnostics = t₀.diagnostics

theorem follows_start (h : t₀.Ready δ) (span : Option Span) : Follows δ t₀ (start span) t₀ where
  ready := by simpa [start] using h
  chains := by simp [start, chainAt?]
  template := by
    have hid : (fun ns : List Node => ns ++ []) = id := funext List.append_nil
    exact ⟨[], rfl, by rw [hid, Outline.modifyAt_id]⟩
  diagnostics := rfl

/-- Behind a line at a level only the conditionals above the level can take another branch, and the
one at the level if its own line does not rule that out. -/
theorem lt_or_goesOn (hle : ∀ c ∈ s.chains, c.level ≤ level)
    (hnode : e.isBranch = false → ∀ c ∈ s.chains, c.level < level) {d : Chain}
    (hd : (s.enter level e opens).chainAt? k = some d) (helse : d.hasElse = false) :
    k < level ∨ k = level ∧ e.goesOn = true := by
  obtain ⟨hmem, rfl⟩ := exists_of_chainAt? hd
  rcases Entry.mem_chains hmem with ⟨c, hc, hlevel, helse'⟩ | ⟨rfl, -, -, rfl⟩
  · rcases (hle c hc).lt_or_eq with hlt | rfl
    · exact Or.inl (hlevel ▸ hlt)
    · obtain ⟨b, rfl⟩ := Entry.eq_branch_of_mem hnode hc
      refine Or.inr ⟨hlevel, ?_⟩
      have hlast : ¬ (Entry.branch b).isLast = true := by
        intro hlast
        rw [helse'.mpr (Or.inr ⟨rfl, hlast⟩)] at helse
        cases helse
      simpa [Entry.goesOn, Entry.isLast, Option.isSome_iff_ne_none] using hlast
  · exact Or.inr ⟨rfl, rfl⟩

theorem Ready.mono (h : s.Ready level) (hk : k ≤ level) : s.Ready k :=
  ⟨h.leveled, hk.trans h.level_le, fun base hb => hk.trans (h.props base hb),
    fun base hb => hk.trans (h.classes base hb)⟩

/-- What a line at a level leaves open. -/
theorem Ready.chains_ended (h : s.Ready level) (c : Text) :
    (∀ d ∈ (s.ended level c).chains, d.level ≤ level) ∧
      ((LineKind.ofText c).continuesChain = false →
        ∀ d ∈ (s.ended level c).chains, d.level < level) := by
  obtain ⟨hleveled, hframes, -, -⟩ := h.ended c
  obtain ⟨-, -, hlt⟩ := (h.leveled.narrows_closeHeaders level).leveled.narrows_settle h.level_le
    (LineKind.ofText c)
  refine ⟨fun d hd => ?_, hlt⟩
  have hle := hleveled.chains d hd
  rwa [hframes, length_down] at hle

/-- The list that an entry goes to is not empty if the entry stands below a line or is a branch. -/
theorem Sound.level_zero (h : s.Sound P) (hlevel : level ≤ s.frames.length) (hfits : e.Fits s level)
    (hnil : s.template.children = []) : level = 0 ∧ e.isBranch = false := by
  have hzero : level = 0 := by
    have hedge := h.edge.mono hlevel
    rw [hnil] at hedge
    cases level with
    | zero => rfl
    | succ level =>
      obtain ⟨n, body, hn, -⟩ := hedge
      cases hn
  refine ⟨hzero, ?_⟩
  by_contra hb
  obtain ⟨c, hc, -⟩ := hfits (by simpa using hb)
  obtain ⟨hmem, hclevel⟩ := exists_of_chainAt? hc
  obtain ⟨body, hbody, front, branches, span, rfl, -⟩ := h.chains c hmem
  rw [hclevel, hzero, hnil] at hbody
  simp [Outline.listAt?] at hbody

/-- The same line, moved like the lines before it, is read behind the given state as it is read on
its own. -/
theorem Follows.step (h : Follows δ t₀ s t) (hs : s.Sound P) (hready : s.Ready level)
    (hsay : (LineKind.ofText c).Says c e) (hfits : e.Fits s level)
    (hl : Margin.ofLine l.text = .level level c)
    (hl' : Margin.ofLine l'.text = .level (level + δ) c) :
    Follows δ t₀ (s.step l) (t.step l') := by
  have hready' : t.Ready (level + δ) := h.ready.mono (Nat.add_le_add_right hready.level_le δ)
  have hfits' : e.Fits t (level + δ) := by
    intro hb
    obtain ⟨d, hd, helse⟩ := hfits hb
    exact h.chains level d hd helse
  obtain ⟨e₁, he₁, -, hstep₁⟩ := step_saying hsay hready hfits hl
  obtain ⟨e₂, he₂, hfits₂, hstep₂⟩ := step_saying hsay hready' hfits' hl'
  obtain ⟨hleveled', hframes', hprops', hclasses'⟩ := hready'.ended c
  have henters : Enters (level + δ) e₂ e.opens (t.ended (level + δ) c)
      ((t.ended (level + δ) c).enter (level + δ) e₂ e.opens) :=
    enters_enter hleveled' hframes' hprops' hclasses' hfits₂
  have hbranch₁ : e₁.isBranch = (LineKind.ofText c).continuesChain := by
    rw [← Entry.isBranch_bare e₁, he₁, Entry.isBranch_bare, hsay.continues]
  have hgoesOn : e₁.goesOn = e₂.goesOn := by
    rw [← Entry.goesOn_bare e₁, he₁, ← he₂, Entry.goesOn_bare]
  obtain ⟨hle, hlt⟩ := hready.chains_ended c
  rw [hstep₁, hstep₂]
  constructor
  case ready =>
    have hframes := frames_enter (hready.ended c).2.1 e₁ e.opens
    rw [hframes, length_down]
    cases hopens : e.opens with
    | false => simpa [hopens] using henters.reads.ready
    | true =>
      have hdeeper := henters.ready hopens
      rw [hopens] at hdeeper
      simpa [Nat.add_right_comm] using hdeeper
  case chains =>
    intro k d hd helse
    rcases lt_or_goesOn hle (fun hb => hlt (hbranch₁ ▸ hb)) hd helse with hk | ⟨rfl, hgo⟩
    · rw [chainAt?_enter hk, chainAt?_ended s (Or.inl hk)] at hd
      obtain ⟨d', hd', helse'⟩ := h.chains k d hd helse
      have hk' : k + δ < level + δ := Nat.add_lt_add_right hk δ
      exact ⟨d', by rw [chainAt?_enter hk', chainAt?_ended t (Or.inl hk'), hd'], helse'⟩
    · exact exists_chainAt?_enter hfits₂ (hgoesOn ▸ hgo)
  case template =>
    obtain ⟨ns, hns, htemplate⟩ := h.template
    have hempty : ns = [] → s.template.children = [] := by
      intro hnil
      rw [hnil] at hns
      rw [← List.isEmpty_iff, ← Node.isEmpty_bareList, ← hns]
      rfl
    -- the entry goes to the nodes of the text itself, not to what was there before
    have hgrown : ∀ ms, Outline.modifyAt e₂.into level (ms ++ ns) =
        ms ++ Outline.modifyAt e₂.into level ns := by
      apply Outline.modifyAt_into_append
      intro hnil
      obtain ⟨hzero, hb⟩ := hs.level_zero hready.level_le hfits (hempty hnil)
      exact ⟨hzero, by rw [← Entry.isBranch_bare, he₂, Entry.isBranch_bare, hb]⟩
    refine ⟨Outline.modifyAt e₂.into level ns, ?_, ?_⟩
    · exact Entry.bareList_modifyAt_into (he₂.trans he₁.symm) hns level
    · have hended : (t.ended (level + δ) c).template = t.template := rfl
      rw [henters.reads.template, hended, htemplate]
      simp only
      rw [Nat.add_comm level δ, Outline.modifyAt_add, Outline.modifyAt_modifyAt]
      simp only [Function.comp_def, hgrown]
  case diagnostics => exact henters.reads.diagnostics.trans h.diagnostics

/-- A line of a text without a header that is read without a report is blank, or it stands at an
open level and says an entry that fits there. -/
theorem exists_entry (h : s.Sound P) (hl : Unbroken l.text) (hnil : (s.step l).diagnostics = [])
    (hhead : (s.step l).template.Headless) : Blank l.text ∨ ∃ level c e,
      Margin.ofLine l.text = .level level c ∧ s.Ready level ∧ (LineKind.ofText c).Says c e ∧
        e.Fits s level := by
  have ht := transition_step h.leveled hl (yields_true (s.step l).diagnostics)
  rcases exists_level h ht hnil hhead with hblank | ⟨level, c, hmargin, hready, hheader⟩
  · exact Or.inl hblank
  · have hrun : ([l].foldl Outliner.step s).diagnostics = [] := hnil
    have hbefore : s.diagnostics = [] := nil_of_run h.leveled (by simpa using hl) hrun
    have hquiet : ((s.ended level c).readKind (l.mark (2 * level + 1)) level c
        (LineKind.ofText c)).diagnostics = (s.ended level c).diagnostics := by
      rw [← step_of_margin hready hmargin, hnil]
      exact hbefore.symm
    obtain ⟨e, hsay, hfits⟩ := LineKind.exists_saying (LineKind.heads_ofText c) hheader hquiet
    exact Or.inr ⟨level, c, e, hmargin, hready, hsay, (fits_ended hsay.continues s level).mp hfits⟩

/-- A whole text without a header that is read on its own without a report. -/
theorem follows_run (h : Follows δ t₀ s t) (hs : s.Sound fun _ => True)
    (hl : ∀ l ∈ ls, Unbroken l.text)
    (hls : ls'.map Line.text = ls.map fun l => Margin.deepen δ l.text)
    (hnil : (ls.foldl Outliner.step s).diagnostics = [])
    (hhead : (ls.foldl Outliner.step s).template.Headless) :
    Follows δ t₀ (ls.foldl Outliner.step s) (ls'.foldl Outliner.step t) := by
  induction ls generalizing s t ls' with
  | nil =>
    obtain rfl := List.map_eq_nil_iff.mp hls
    exact h
  | cons l ls ih =>
    obtain ⟨l', ls', rfl, hl', hls'⟩ := exists_cons_of_map hls
    have hl' : l'.text = Margin.deepen δ l.text := hl'
    have hline : Unbroken l.text := hl l List.mem_cons_self
    have hlines : ∀ k ∈ ls, Unbroken k.text := fun k hk => hl k (List.mem_cons_of_mem l hk)
    have ht := transition_step hs.leveled hline (yields_true (s.step l).diagnostics)
    have hsound := hs.transition ht
    have hnil' := nil_of_run hsound.leveled hlines hnil
    have hhead' := headless_run hsound.leveled hlines hhead
    rw [List.foldl_cons, List.foldl_cons]
    refine ih ?_ hsound hlines hls' hnil hhead
    rcases exists_entry hs hline hnil' hhead' with
      hblank | ⟨level, c, e, hmargin, hready, hsay, hfits⟩
    · have hstep : s.step l = s := by
        rw [Outliner.step, Margin.ofLine_blank.mpr hblank]
      have hstep' : t.step l' = t := by
        rw [Outliner.step, hl', Margin.deepen_blank hblank, Margin.ofLine_blank.mpr hblank]
      rwa [hstep, hstep']
    · have hmargin' : Margin.ofLine l'.text = .level (level + δ) c := by
        rw [hl']
        exact Margin.ofLine_deepen hmargin δ
      exact h.step hs hready hsay hfits hmargin hmargin'

end Outliner

end Offside
