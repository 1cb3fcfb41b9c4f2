import Offside.Proofs.Template.Region
import Offside.Proofs.Template.Sound

/-! What a line adds to the template. A line that is not left out owns one place in it, and if
nothing is reported the template shows all the ink of the line, in the region of the line. So every
line of a template is accounted for. -/
namespace Offside

open Text

namespace Template

/-- The lines of the nodes and branches that stand on lines of their own, with their depths. -/
def bodyOwners (t : Template) : List (Option Int × Nat) :=
  ((Node.rowsIn 0 none t.children).filter (!·.hosted)).map fun r => (r.line, r.depth)

/-- The lines that something in a region of the template owns, once for each thing. -/
def ownersIn (t : Template) : Region → List (Option Int)
  | .id => (t.rawId.map fun _ => lineOf t.idSpan).toList
  | .props => t.props.elim [] fun p => lineOf p.span :: p.fields.map (lineOf ·.span)
  | .classes => t.aliases.elim [] fun b => lineOf b.span :: b.aliases.map (lineOf ·.span)
  | .body => t.bodyOwners.map Prod.fst

/-- The lines that something in the template owns, once for each thing. -/
def owners (t : Template) : List (Option Int) :=
  t.ownersIn .id ++ t.ownersIn .props ++ t.ownersIn .classes ++ t.ownersIn .body

/-- What can be seen of a region of the template. -/
def inkOf (t : Template) : Region → Text
  | .id => t.rawId.elim [] (['#', 'i', 'd'] ++ ·)
  | .props => t.props.elim [] fun p => ['p', 'r', 'o', 'p', 's'] ++
      p.fields.flatMap fun f =>
        f.name ++ (if f.optional then ['?'] else []) ++ ':' :: ink f.typeText
  | .classes => t.aliases.elim [] fun b => ['c', 'l', 'a', 's', 's', 'e', 's'] ++
      b.aliases.flatMap fun a => a.name ++ '=' :: a.classes.flatMap ('.' :: ·)
  | .body => Node.inked (Node.rowsIn 0 none t.children)

theorem mem_owners_of_row {t : Template} {r : Row} (hr : r ∈ Node.rowsIn 0 none t.children)
    (hhosted : r.hosted = false) : r.line ∈ t.owners := by
  refine List.mem_append_right _ (List.mem_map.mpr ⟨(r.line, r.depth), ?_, rfl⟩)
  exact List.mem_map.mpr ⟨r, List.mem_filter.mpr ⟨hr, by simp [hhosted]⟩, rfl⟩

end Template

namespace Outliner

variable {P : List Part → Prop} {l : Line} {s t : Outliner} {level : Nat} {content : Text}
  {above : Region} {e : Entry} {opens : Bool} {ds : List Diagnostic} {m : Mark}

/-- The rows of an entry come behind all rows. -/
theorem rows_enter (h : s.Sound P) (hframes : s.frames = down level)
    (hread : Entry.Reading P m content e opens ds)
    (hbranch : e.isBranch = true → ∃ c ∈ s.chains, c.level = level ∧ c.hasElse = false)
    (hfresh : some (m.line : Int) ∉ s.template.owners) :
    Node.rowsIn 0 none (s.enter level e opens).template.children =
      Node.rowsIn 0 none s.template.children ++ e.rows level := by
  have hlength : s.frames.length = level := by rw [hframes, length_down]
  obtain ⟨body, hbody⟩ := (hlength ▸ h.edge : Outline.OpenAt P level _).exists_listAt?
  obtain ⟨pre, host, hhost, hrows, hmap⟩ := Node.exists_rows_modifyAt hbody 0 none
  have hne : host ≠ some (m.line : Int) := by
    rintro rfl
    rcases hhost with hnone | hnone | ⟨r, hr, hhosted, hline⟩
    · cases hnone
    · cases hnone
    · refine hfresh (hline ▸ Template.mem_owners_of_row ?_ hhosted)
      rw [hrows]
      exact List.mem_append_left _ hr
  rw [Nat.zero_add] at hrows hmap
  have henter : (s.enter level e opens).template.children =
      Outline.modifyAt e.into level s.template.children := rfl
  rw [henter, hmap, hrows, List.append_assoc]
  congr 1
  cases e with
  | node n =>
    have hn : host ≠ n.startLine? := by
      rw [hread.startLine n rfl]
      exact hne
    rw [Entry.into, Node.rowsIn_append, Node.rowsIn_singleton, Node.rows_of_ne hn, Entry.rows]
  | branch b =>
    obtain ⟨c, hc, hlevel, -⟩ := hbranch rfl
    obtain ⟨body', hbody', front, branches, span, rfl, hbranches, -⟩ := h.chains c hc
    rw [hlevel, hbody] at hbody'
    obtain rfl := Option.some.inj hbody'
    rw [Entry.into, onLast_concat, Node.addBranch, Node.rowsIn_append, Node.rowsIn_append,
      Node.rowsIn_singleton, Node.rowsIn_singleton, Node.rows, Node.rows,
      Node.rowsOf_concat hbranches, List.append_assoc, Entry.rows]

/-- Of the rows of an entry only the first owns its line. -/
theorem bodyOwners_enter (h : s.Sound P) (hframes : s.frames = down level)
    (hread : Entry.Reading P m content e opens ds)
    (hbranch : e.isBranch = true → ∃ c ∈ s.chains, c.level = level ∧ c.hasElse = false)
    (hfresh : some (m.line : Int) ∉ s.template.owners) :
    (s.enter level e opens).template.bodyOwners =
      s.template.bodyOwners ++ [(some (m.line : Int), level)] := by
  obtain ⟨r, rs, hrows, hdepth, hhosted, hline, hrs⟩ := hread.rows level
  have hfilter : (e.rows level).filter (!·.hosted) = [r] := by
    have hrs' : rs.filter (!·.hosted) = [] :=
      List.filter_eq_nil_iff.mpr fun q hq => by simp [hrs q hq]
    rw [hrows, List.filter_cons, hhosted, hrs']
    rfl
  rw [Template.bodyOwners, rows_enter h hframes hread hbranch hfresh, List.filter_append, hfilter,
    List.map_append, Template.bodyOwners]
  simp [hdepth, hline]

/-- A line that is not left out owns one place, the last one of a region. -/
theorem Transition.ownersIn (hs : s.Sound P) (ht : Transition P l s t)
    (hfresh : some (l.number : Int) ∉ s.template.owners) :
    t.template = s.template ∧ (Blank l.text ∨ ∃ d ∈ t.diagnostics, d.OnLine l.number) ∨
      ∃ r, ∀ q, t.template.ownersIn q =
        s.template.ownersIn q ++ if q = r then [some (l.number : Int)] else [] := by
  cases ht with
  | blank hb => exact Or.inl ⟨rfl, Or.inl hb⟩
  | @dropped t ds ht hne hds =>
    obtain ⟨d, ds, rfl⟩ := List.exists_cons_of_ne_nil hne
    exact Or.inl ⟨ht.template, Or.inr ⟨d, by simp [note], hds d (by simp)⟩⟩
  | @id t content v jump span hp hk hraw hv hink hspan =>
    refine Or.inr ⟨.id, fun q => ?_⟩
    cases q <;> simp [Template.ownersIn, Template.bodyOwners, note, declareId, hp.narrows.template,
      hraw, lineOf, hspan]
  | @props t content jump span hp hk hc hnone hspan =>
    refine Or.inr ⟨.props, fun q => ?_⟩
    cases q <;> simp [Template.ownersIn, Template.bodyOwners, note, startProps,
      hp.narrows.template, hnone, lineOf, hspan]
  | @classes t content jump span hp hk hc hnone hspan =>
    refine Or.inr ⟨.classes, fun q => ?_⟩
    cases q <;> simp [Template.ownersIn, Template.bodyOwners, note, startClasses,
      hp.narrows.template, hnone, lineOf, hspan]
  | @field t content base f ht hprops hmargin hf hspan hink =>
    obtain ⟨span, hfs, hspan⟩ := hspan
    obtain ⟨p, hp⟩ := Option.ne_none_iff_exists'.mp (hs.props base (ht.propsLevel base hprops)).2.1
    refine Or.inr ⟨.props, fun q => ?_⟩
    cases q <;> simp [Template.ownersIn, Template.bodyOwners, addField, ht.template, hp, lineOf,
      hfs, hspan]
  | @classAlias t content right base a ht hclasses hmargin ha hspan hink hright =>
    obtain ⟨span, has, hspan⟩ := hspan
    obtain ⟨b, hb⟩ := Option.ne_none_iff_exists'.mp
      (hs.classes base (ht.classesLevel base hclasses)).2.1
    refine Or.inr ⟨.classes, fun q => ?_⟩
    cases q <;> simp [Template.ownersIn, Template.bodyOwners, addAlias, ht.template, hb, lineOf,
      has, hspan]
  | @entry t content jump ds level m e opens hp hk hm hread hbranch hnode =>
    have htemplate := hp.narrows.template
    have hfresh' : some (m.line : Int) ∉ t.template.owners := by rwa [hm, htemplate]
    have hbody := bodyOwners_enter (hs.narrows hp.narrows) hp.frames hread hbranch hfresh'
    refine Or.inr ⟨.body, fun q => ?_⟩
    rw [← htemplate]
    cases q with
    | body =>
      have hnote : ((t.enter level e opens).note (jump ++ ds)).template.bodyOwners =
          (t.enter level e opens).template.bodyOwners := rfl
      rw [Template.ownersIn, Template.ownersIn, hnote, hbody, hm]
      simp
    | _ => simp [Template.ownersIn, note, Outliner.enter]

/-! ## Lines without a report -/

/-- The block that is open behind a line of a region. -/
structure Above (r : Region) (s : Outliner) : Prop where
  props : r = .props ↔ s.propsLevel ≠ none
  classes : r = .classes ↔ s.classesLevel ≠ none

/-- A line of a region is added to the template, and all its ink is shown there. -/
structure Gains (r : Region) (l : Line) (s t : Template) : Prop where
  ink : ∀ q, t.inkOf q = s.inkOf q ++ if q = r then r.shown l else []
  body : t.bodyOwners = s.bodyOwners ++
    if r = .body then [(some (l.number : Int), Margin.spaces l.text / 2)] else []

/-- An entry on a line without a report is at the level of the line, outside the blocks. -/
theorem Placed.region_body (hs : s.Sound P) (h : Placed l s t level content [])
    (hk : (LineKind.ofText content).isHeader = false) (habove : s.Above above) :
    Region.ofLine above l.text = .body := by
  obtain ⟨hmargin, hbase⟩ := h.margin_of_nil
  cases level with
  | zero =>
    rw [Region.ofLine_zero hmargin]
    cases hkind : LineKind.ofText content <;> simp [hkind, LineKind.isHeader] at hk ⊢ <;> rfl
  | succ level =>
    rw [Region.ofLine_succ hmargin]
    have hclosed : ∀ base, ¬ (base ∈ s.propsLevel ∨ base ∈ s.classesLevel) := by
      intro base hb
      have := hbase base hb
      rcases hb with hb | hb
      · have := (hs.props base hb).1
        omega
      · have := (hs.classes base hb).1
        omega
    cases above with
    | id => rfl
    | body => rfl
    | props =>
      obtain ⟨base, hb⟩ := Option.ne_none_iff_exists'.mp (habove.props.mp rfl)
      exact (hclosed base (Or.inl hb)).elim
    | classes =>
      obtain ⟨base, hb⟩ := Option.ne_none_iff_exists'.mp (habove.classes.mp rfl)
      exact (hclosed base (Or.inr hb)).elim

/-- Only the block that is open behind the lines so far stays open. -/
theorem Above.of_props {base : Nat} (habove : s.Above above) (ht : s.Narrows t)
    (hbase : base ∈ t.propsLevel) : above = .props ∧ t.classesLevel = none := by
  have habove' : above = .props :=
    habove.props.mpr (by simp [Option.mem_def.mp (ht.propsLevel base hbase)])
  refine ⟨habove', Option.eq_none_iff_forall_not_mem.mpr fun other hother => ?_⟩
  have := habove.classes.mpr (by simp [Option.mem_def.mp (ht.classesLevel other hother)])
  rw [habove'] at this
  cases this

theorem Above.of_classes {base : Nat} (habove : s.Above above) (ht : s.Narrows t)
    (hbase : base ∈ t.classesLevel) : above = .classes ∧ t.propsLevel = none := by
  have habove' : above = .classes :=
    habove.classes.mpr (by simp [Option.mem_def.mp (ht.classesLevel base hbase)])
  refine ⟨habove', Option.eq_none_iff_forall_not_mem.mpr fun other hother => ?_⟩
  have := habove.props.mpr (by simp [Option.mem_def.mp (ht.propsLevel other hother)])
  rw [habove'] at this
  cases this

/-! What each way to change the template shows of the line. -/

theorem gains_declareId {v : Text} (hp : Placed l s t 0 content [])
    (hraw : s.template.rawId = none) (hink : ink content = ['#', 'i', 'd'] ++ v) (span : Span) :
    Gains .id l s.template (t.declareId v span).template := by
  have hshown := Region.ink_of_level hp.margin_of_nil.1
  rw [← hp.narrows.template] at hraw ⊢
  refine ⟨fun q => ?_, ?_⟩
  · cases q <;> simp [Template.inkOf, Region.shown, declareId, hraw, hshown, hink]
  · simp [Template.bodyOwners, declareId]

theorem gains_startProps (hp : Placed l s t 0 content [])
    (hk : LineKind.ofText content = .props) (hnone : s.template.props = none) (span : Span) :
    Gains .props l s.template (t.startProps span).template := by
  have hshown := Region.ink_of_level hp.margin_of_nil.1
  have hheads := LineKind.heads_ofText content
  rw [hk] at hheads
  obtain rfl : content = _ := hheads
  have hword : ink ['p', 'r', 'o', 'p', 's'] = ['p', 'r', 'o', 'p', 's'] := rfl
  rw [← hp.narrows.template] at hnone ⊢
  refine ⟨fun q => ?_, ?_⟩
  · cases q <;> simp [Template.inkOf, Region.shown, startProps, hnone, hshown, hword]
  · simp [Template.bodyOwners, startProps]

/-- The line that opens the classes block is owned by it. -/
theorem gains_startClasses (hp : Placed l s t 0 content [])
    (hk : LineKind.ofText content = .classes) (hnone : s.template.aliases = none) (span : Span) :
    Gains .classes l s.template (t.startClasses span).template := by
  have hshown := Region.ink_of_level hp.margin_of_nil.1
  have hheads := LineKind.heads_ofText content
  rw [hk] at hheads
  obtain rfl : content = _ := hheads
  have hword : Region.dotted (ink ['c', 'l', 'a', 's', 's', 'e', 's']) =
      ['c', 'l', 'a', 's', 's', 'e', 's'] := rfl
  rw [← hp.narrows.template] at hnone ⊢
  refine ⟨fun q => ?_, ?_⟩
  · cases q <;> simp [Template.inkOf, Region.shown, startClasses, hnone, hshown, hword]
  · simp [Template.bodyOwners, startClasses]

theorem gains_addField {f : PropsField} (ht : s.Narrows t) (hprops : s.template.props ≠ none)
    (hmargin : Margin.ofLine l.text = .level level content)
    (hink : ink content =
      f.name ++ (if f.optional then ['?'] else []) ++ ':' :: ink f.typeText) :
    Gains .props l s.template (t.addField f).template := by
  obtain ⟨p, hp⟩ := Option.ne_none_iff_exists'.mp hprops
  have hshown := Region.ink_of_level hmargin
  rw [← ht.template] at hp ⊢
  refine ⟨fun q => ?_, ?_⟩
  · cases q <;> simp [Template.inkOf, Region.shown, addField, hp, hshown, hink]
  · simp [Template.bodyOwners, addField]

/-- The first dot of the classes may be left out on the line, and is shown with it. -/
theorem dotted_of_isAlias {a : ClassAlias} {right : Text} (ha : IsAlias a)
    (hink : ink content = a.name ++ '=' :: right)
    (hright : a.classes.flatMap ('.' :: ·) = right ∨
      right.head? ≠ some '.' ∧ a.classes.flatMap ('.' :: ·) = '.' :: right) :
    Region.dotted (ink content) = a.name ++ '=' :: a.classes.flatMap ('.' :: ·) := by
  rw [hink, Region.dotted_append ha.name]
  rcases hright with hright | ⟨hhead, hright⟩
  · have hdot : right.head? = some '.' := by
      obtain ⟨c, cs, hcs⟩ := List.exists_cons_of_ne_nil ha.ne_nil
      rw [← hright, hcs]
      rfl
    rw [if_pos hdot, hright]
  · rw [if_neg hhead, hright]

theorem gains_addAlias {a : ClassAlias} (ht : s.Narrows t) (haliases : s.template.aliases ≠ none)
    (hmargin : Margin.ofLine l.text = .level level content)
    (hdotted : Region.dotted (ink content) = a.name ++ '=' :: a.classes.flatMap ('.' :: ·)) :
    Gains .classes l s.template (t.addAlias a).template := by
  obtain ⟨b, hb⟩ := Option.ne_none_iff_exists'.mp haliases
  have hshown := Region.ink_of_level hmargin
  rw [← ht.template] at hb ⊢
  refine ⟨fun q => ?_, ?_⟩
  · cases q <;> simp [Template.inkOf, Region.shown, addAlias, hb, hshown, hdotted]
  · simp [Template.bodyOwners, addAlias]

/-- An entry shows its line behind the rows so far. -/
theorem gains_enter (hs : s.Sound P) (hp : Placed l s t level content []) (hm : m.line = l.number)
    (hread : Entry.Reading P m content e opens [])
    (hbranch : e.isBranch = true → ∃ c ∈ t.chains, c.level = level ∧ c.hasElse = false)
    (hfresh : some (l.number : Int) ∉ s.template.owners) :
    Gains .body l s.template (t.enter level e opens).template := by
  have hmargin := hp.margin_of_nil.1
  have hsound := hs.narrows hp.narrows
  rw [← hm, ← hp.narrows.template] at hfresh
  rw [← hp.narrows.template]
  refine ⟨fun q => ?_, ?_⟩
  · cases q with
    | body =>
      have hrows := rows_enter hsound hp.frames hread hbranch hfresh
      simp [Template.inkOf, hrows, hread.ink_eq rfl, Region.shown, Region.ink_of_level hmargin]
    | _ => simp [Template.inkOf, Outliner.enter]
  · have hspaces := (Margin.ofLine_level hmargin).1
    rw [bodyOwners_enter hsound hp.frames hread hbranch hfresh, hm, hspaces, if_pos rfl,
      Nat.mul_div_cancel_left _ Nat.two_pos]

/-- A line without a report is shown in its region. -/
theorem Transition.gains (hs : s.Sound P) (ht : Transition P l s t)
    (hfresh : some (l.number : Int) ∉ s.template.owners) (hl : ¬ Blank l.text)
    (habove : s.Above above) (hnil : t.diagnostics = []) :
    t.Above (Region.ofLine above l.text) ∧
      Gains (Region.ofLine above l.text) l s.template t.template := by
  cases ht with
  | blank hb => exact (hl hb).elim
  | dropped ht hne => simp [note, hne] at hnil
  | @id t content v jump span hp hk hraw hv hink hspan =>
    obtain rfl : jump = [] := (List.append_eq_nil_iff.mp hnil).2
    rw [Region.ofLine_zero hp.margin_of_nil.1, hk]
    refine ⟨⟨?_, ?_⟩, gains_declareId hp hraw hink span⟩
    · simp [Region.ofKind, note, declareId, hp.propsLevel]
    · simp [Region.ofKind, note, declareId, hp.classesLevel]
  | @props t content jump span hp hk hc hnone hspan =>
    obtain rfl : jump = [] := (List.append_eq_nil_iff.mp hnil).2
    rw [Region.ofLine_zero hp.margin_of_nil.1, hk]
    refine ⟨⟨?_, ?_⟩, gains_startProps hp hk hnone span⟩
    · simp [Region.ofKind, note, startProps]
    · simp [Region.ofKind, note, startProps, hp.classesLevel]
  | @classes t content jump span hp hk hc hnone hspan =>
    obtain rfl : jump = [] := (List.append_eq_nil_iff.mp hnil).2
    rw [Region.ofLine_zero hp.margin_of_nil.1, hk]
    refine ⟨⟨?_, ?_⟩, gains_startClasses hp hk hnone span⟩
    · simp [Region.ofKind, note, startClasses, hp.propsLevel]
    · simp [Region.ofKind, note, startClasses]
  | @field t content base f ht hprops hmargin hf hspan hink =>
    obtain ⟨rfl, hclasses⟩ := habove.of_props ht hprops
    have hblock := (hs.props base (ht.propsLevel base hprops)).2.1
    rw [Region.ofLine_succ hmargin]
    refine ⟨⟨?_, ?_⟩, gains_addField ht hblock hmargin hink⟩
    · simp [Region.below, addField, hprops]
    · simp [Region.below, addField, hclasses]
  | @classAlias t content right base a ht hclasses hmargin ha hspan hink hright =>
    obtain ⟨rfl, hprops⟩ := habove.of_classes ht hclasses
    have hblock := (hs.classes base (ht.classesLevel base hclasses)).2.1
    rw [Region.ofLine_succ hmargin]
    refine ⟨⟨?_, ?_⟩, gains_addAlias ht hblock hmargin (dotted_of_isAlias ha hink hright)⟩
    · simp [Region.below, addAlias, hprops]
    · simp [Region.below, addAlias, hclasses]
  | @entry t content jump ds level m e opens hp hk hm hread hbranch hnode =>
    have hjump : jump ++ ds = [] := (List.append_eq_nil_iff.mp hnil).2
    obtain ⟨rfl, rfl⟩ := List.append_eq_nil_iff.mp hjump
    rw [hp.region_body hs hk habove]
    refine ⟨⟨?_, ?_⟩, gains_enter hs hp hm hread hbranch hfresh⟩
    · simp [note, Outliner.enter, hp.propsLevel]
    · simp [note, Outliner.enter, hp.classesLevel]

/-! ## Runs -/

theorem count_owners {r : Region} {x : Option Int} {t u : Template}
    (h : ∀ q, u.ownersIn q = t.ownersIn q ++ if q = r then [x] else []) (y : Option Int) :
    u.owners.count y = t.owners.count y + if x = y then 1 else 0 := by
  have hx : ([x] : List (Option Int)).count y = if x = y then 1 else 0 := by
    simp [List.count_singleton]
  cases r <;> simp only [Template.owners, h, List.count_append, hx, reduceCtorEq, if_true, if_false,
    List.count_nil] <;> omega

variable {ts : List Text} {n offset : Nat}

/-- No line from a number on is owned. -/
def Fresh (n : Nat) (s : Outliner) : Prop := ∀ k, n ≤ k → some (k : Int) ∉ s.template.owners

theorem Fresh.succ (hs : s.Sound P) (h : s.Fresh n) (hn : l.number = n)
    (ht : Transition P l s t) : t.Fresh (n + 1) := by
  intro k hk
  have hfresh : some (k : Int) ∉ s.template.owners := h k (by omega)
  rcases ht.ownersIn hs (hn ▸ h n le_rfl) with ⟨htemplate, -⟩ | ⟨r, hr⟩
  · rwa [htemplate]
  · have hne : some (l.number : Int) ≠ some (k : Int) := by
      intro he
      have := Option.some.inj he
      omega
    rw [← List.count_eq_zero, count_owners hr, if_neg hne, List.count_eq_zero.mpr hfresh]

/-- A run gives each line at most one owner, and none only to a blank line or with a report. -/
theorem count_owners_run (hs : s.Sound fun _ => True) (hfresh : s.Fresh n)
    (hts : ∀ w ∈ ts, Unbroken w) (t : Outliner)
    (ht : (Line.numberFrom n offset ts).foldl step s = t) :
    (∀ k < n, t.template.owners.count (some (k : Int)) = s.template.owners.count (some (k : Int))) ∧
      ∀ l ∈ Line.numberFrom n offset ts, ¬ Blank l.text →
        t.template.owners.count (some (l.number : Int)) ≤ 1 ∧
        (t.template.owners.count (some (l.number : Int)) = 0 →
          ∃ d ∈ t.diagnostics, d.OnLine l.number) := by
  induction ts generalizing n offset s with
  | nil =>
    subst ht
    exact ⟨fun _ _ => rfl, by simp [Line.numberFrom]⟩
  | cons w ts ih =>
    have hstep := transition_step (l := ⟨n, offset, w⟩) hs.leveled (hts w List.mem_cons_self)
      (yields_true _)
    have hts' : ∀ w ∈ ts, Unbroken w := fun v hv => hts v (List.mem_cons_of_mem w hv)
    have hsound := hs.transition hstep
    obtain ⟨hbefore, hlines⟩ := ih hsound (hfresh.succ hs rfl hstep) hts' ht
    have hkeep : ∀ d ∈ (s.step ⟨n, offset, w⟩).diagnostics, d ∈ t.diagnostics := by
      rw [← ht]
      refine subset_diagnostics_run hsound.leveled fun l hl => ?_
      exact hts' l.text (Line.le_of_mem_numberFrom hl).2
    have hzero : s.template.owners.count (some (n : Int)) = 0 :=
      List.count_eq_zero.mpr (hfresh n le_rfl)
    have howners := hstep.ownersIn hs (hfresh n le_rfl)
    refine ⟨fun k hk => ?_, fun l hl hblank => ?_⟩
    · rw [hbefore k (by omega)]
      rcases howners with ⟨htemplate, -⟩ | ⟨r, hr⟩
      · rw [htemplate]
      · have hne : some (n : Int) ≠ some (k : Int) := by
          intro he
          have := Option.some.inj he
          omega
        rw [count_owners hr, if_neg hne, Nat.add_zero]
    · rcases List.mem_cons.mp hl with rfl | hl
      · rw [hbefore n (by omega)]
        rcases howners with ⟨htemplate, hb | ⟨d, hd, hline⟩⟩ | ⟨r, hr⟩
        · exact (hblank hb).elim
        · rw [htemplate, hzero]
          exact ⟨Nat.zero_le 1, fun _ => ⟨d, hkeep d hd, hline⟩⟩
        · rw [count_owners hr, if_pos rfl, hzero]
          exact ⟨le_rfl, by simp⟩
      · exact hlines l hl hblank

/-- A run without a report shows the ink of all lines, each in its region. -/
theorem gains_run (hs : s.Sound fun _ => True) (hfresh : s.Fresh n) (hts : ∀ w ∈ ts, Unbroken w)
    (habove : s.Above above) (t : Outliner)
    (ht : (Line.numberFrom n offset ts).foldl step s = t) (hnil : t.diagnostics = []) :
    (∀ q, t.template.inkOf q = s.template.inkOf q ++
      (q.pick (Region.sort above (Line.numberFrom n offset ts))).flatMap q.shown) ∧
    t.template.bodyOwners = s.template.bodyOwners ++
      (Region.body.pick (Region.sort above (Line.numberFrom n offset ts))).map
        fun l => (some (l.number : Int), Margin.spaces l.text / 2) := by
  induction ts generalizing n offset s above with
  | nil =>
    subst ht
    simp [Line.numberFrom, Region.sort, Region.pick]
  | cons w ts ih =>
    have hstep := transition_step (l := ⟨n, offset, w⟩) hs.leveled (hts w List.mem_cons_self)
      (yields_true _)
    have hts' : ∀ w ∈ ts, Unbroken w := fun v hv => hts v (List.mem_cons_of_mem w hv)
    have hsound := hs.transition hstep
    have hfresh' := hfresh.succ hs rfl hstep
    have hnil' : (s.step ⟨n, offset, w⟩).diagnostics = [] := by
      rw [← ht] at hnil
      refine nil_of_run hsound.leveled (fun l hl => ?_) hnil
      exact hts' l.text (Line.le_of_mem_numberFrom hl).2
    rw [Line.numberFrom]
    by_cases hb : Blank w
    · have hs' : s.step ⟨n, offset, w⟩ = s := by
        rw [step, Margin.ofLine_blank.mpr hb]
      rw [hs'] at hfresh'
      rw [Line.numberFrom, List.foldl_cons, hs'] at ht
      rw [Region.sort_cons_of_blank hb]
      exact ih hs hfresh' hts' habove ht
    · obtain ⟨habove', hink, hbody⟩ := hstep.gains hs (hfresh n le_rfl) hb habove hnil'
      obtain ⟨hink', hbody'⟩ := ih hsound hfresh' hts' habove' ht
      rw [Region.sort_cons hb]
      refine ⟨fun q => ?_, ?_⟩
      · rw [hink' q, hink q, Region.pick_cons, List.flatMap_append, List.append_assoc]
        congr 2
        split
        · next hq =>
          rw [hq]
          simp
        · rfl
      · rw [hbody', hbody, Region.pick_cons, List.map_append, List.append_assoc]
        congr 2
        split
        · next hq =>
          rw [if_pos hq.symm]
          rfl
        · next hq =>
          rw [if_neg fun h => hq h.symm]
          rfl

end Outliner

/-- What is known of the state behind the last line. -/
theorem Template.outline_spec (s : Text) :
    (∀ l ∈ Line.ofText (unifyNewlines s), ¬ Blank l.text →
      (outline (unifyNewlines s)).template.owners.count (some (l.number : Int)) ≤ 1 ∧
      ((outline (unifyNewlines s)).template.owners.count (some (l.number : Int)) = 0 →
        ∃ d ∈ (outline (unifyNewlines s)).diagnostics, d.OnLine l.number)) ∧
    ((outline (unifyNewlines s)).diagnostics = [] →
      (∀ q, (outline (unifyNewlines s)).template.inkOf q = (q.linesIn s).flatMap q.shown) ∧
      (outline (unifyNewlines s)).template.bodyOwners =
        (Region.body.linesIn s).map fun l =>
          (some (l.number : Int), Margin.spaces l.text / 2)) := by
  have hs := Outliner.sound_start (P := fun _ => True) (some (wholeSpan (unifyNewlines s)))
  have hfresh : (Outliner.start (some (wholeSpan (unifyNewlines s)))).Fresh 1 := by
    intro k hk
    simp [Outliner.start, owners, ownersIn, bodyOwners, Node.rowsIn]
  have habove : (Outliner.start (some (wholeSpan (unifyNewlines s)))).Above .body := by
    constructor <;> simp [Outliner.start]
  have hts : ∀ w ∈ Text.lines (unifyNewlines s), Unbroken w := fun w => unbroken_of_mem_lines
  refine ⟨(Outliner.count_owners_run hs hfresh hts _ rfl).2, fun hnil => ?_⟩
  obtain ⟨hink, hbody⟩ := Outliner.gains_run hs hfresh hts habove _ rfl hnil
  refine ⟨fun q => ?_, hbody⟩
  have hstart : (Outliner.start (some (wholeSpan (unifyNewlines s)))).template.inkOf q = [] := by
    cases q <;> rfl
  have hq := hink q
  rwa [hstart, List.nil_append] at hq

namespace Template

/-- A line that is not blank has at most one owner, and one that has none is reported. If nothing is
reported every line has its owner, and the lines outside the header alone give the depths of the
nodes and branches. -/
theorem lines_owned (s : Text) :
    (∀ l ∈ Line.ofText (unifyNewlines s), ¬ Blank l.text →
      (read s).template.owners.count (some (l.number : Int)) ≤ 1 ∧
      ((read s).template.owners.count (some (l.number : Int)) = 0 →
        ∃ d ∈ (read s).diagnostics, d.OnLine l.number)) ∧
    ((read s).diagnostics = [] →
      (∀ l ∈ Line.ofText (unifyNewlines s), ¬ Blank l.text →
        (read s).template.owners.count (some (l.number : Int)) = 1) ∧
      (read s).template.bodyOwners =
        (Region.body.linesIn s).map fun l =>
          (some (l.number : Int), Margin.spaces l.text / 2)) := by
  obtain ⟨hcount, hbody⟩ := outline_spec s
  have hone : ∀ l ∈ Line.ofText (unifyNewlines s), ¬ Blank l.text →
      (read s).template.owners.count (some (l.number : Int)) ≤ 1 ∧
      ((read s).template.owners.count (some (l.number : Int)) = 0 →
        ∃ d ∈ (read s).diagnostics, d.OnLine l.number) := by
    intro l hl hblank
    obtain ⟨hle, hzero⟩ := hcount l hl hblank
    refine ⟨hle, fun h => ?_⟩
    obtain ⟨d, hd, hline⟩ := hzero h
    exact ⟨d, List.mem_append_left _ hd, hline⟩
  refine ⟨hone, fun hnil => ⟨fun l hl hblank => ?_, ?_⟩⟩
  · obtain ⟨hle, hzero⟩ := hone l hl hblank
    have hne : (read s).template.owners.count (some (l.number : Int)) ≠ 0 := by
      intro h
      obtain ⟨d, hd, -⟩ := hzero h
      simp [hnil] at hd
    omega
  · exact (hbody (List.append_eq_nil_iff.mp hnil).1).2

/-- A branch with its body on its line, and a loop with its body below it. -/
def branchedSource : Text := "@if (a) p |x\n@for x in y\n  p\n".toList

theorem lines_owned_branchedSource : (read branchedSource).diagnostics = [] ∧
    (read branchedSource).template.owners.count (some 1) = 1 ∧
    (read branchedSource).template.bodyOwners = [(some 1, 0), (some 2, 0), (some 3, 1)] := by
  have hnil : (read branchedSource).diagnostics = [] := by decide +kernel
  obtain ⟨hone, hbody⟩ := (lines_owned branchedSource).2 hnil
  refine ⟨hnil, ?_, hbody.trans (by decide +kernel)⟩
  exact hone ⟨1, 0, ['@', 'i', 'f', ' ', '(', 'a', ')', ' ', 'p', ' ', '|', 'x']⟩
    (by decide +kernel) (Margin.ofLine_blank.not.mp (by decide +kernel))

end Template

end Offside
