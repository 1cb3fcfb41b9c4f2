import Offside.Proofs.Template.Transition

/-! The invariant of reading. The tree so far stands and can grow down to the deepest open line,
each open chain is the last conditional at its level, and a header block is open only before any
node. -/
namespace Offside

open Text

/-- A header that can be written. -/
structure Template.HeaderStands (t : Template) : Prop where
  id : t.rawId = none ∧ t.id = none ∨
    ∃ v, t.rawId = some v ∧ TemplateId.isValid v = true ∧ t.id = some (TemplateId.logical v)
  fields : ∀ p ∈ t.props, ∀ f ∈ p.fields, IsField f
  aliases : ∀ b ∈ t.aliases, ∀ a ∈ b.aliases, IsAlias a

/-- The id is written as it was declared. -/
theorem Template.HeaderStands.writtenId?_eq {t : Template} (h : t.HeaderStands) :
    t.writtenId? = t.rawId := by
  rcases h.id with ⟨hraw, hid⟩ | ⟨v, hraw, hv, -⟩
  · simp [writtenId?, hraw, hid]
  · have hne := List.isEmpty_eq_false_iff.mpr (TemplateId.ne_nil_of_isValid hv)
    rw [writtenId?, hraw, Option.filter_some, hne]
    rfl

namespace Chain

variable {c : Chain} {ns : List Node} {b : Branch Node}

/-- A chain does not mind what its last branch is given. -/
theorem Ends.mapBody (h : c.Ends ns) (g : List Node → List Node) :
    c.Ends (onLast (Node.mapBody g) ns) := by
  obtain ⟨front, branches, span, rfl, hne, ht⟩ := h
  obtain ⟨init, last, rfl⟩ := List.eq_nil_or_concat' branches |>.resolve_left hne
  refine ⟨front, init ++ [Branch.mapBody g last], span, ?_, by simp, fun hc b hb => ?_⟩
  · rw [onLast_concat, Node.mapBody, onLast_concat]
  · rcases List.mem_append.mp hb with hb | hb
    · exact ht hc b (List.mem_append_left _ hb)
    · obtain rfl := List.mem_singleton.mp hb
      exact ht hc last (by simp)

theorem Ends.mono {d : Chain} (h : c.Ends ns) (hc : d.hasElse = false → c.hasElse = false) :
    d.Ends ns := by
  obtain ⟨front, branches, span, hns, hne, ht⟩ := h
  exact ⟨front, branches, span, hns, hne, fun hd => ht (hc hd)⟩

theorem Ends.addBranch (h : c.Ends ns) {d : Chain}
    (hd : d.hasElse = false → c.hasElse = false ∧ b.test ≠ none) :
    d.Ends (onLast (Node.addBranch b) ns) := by
  obtain ⟨front, branches, span, rfl, hne, ht⟩ := h
  refine ⟨front, branches ++ [b], span, by rw [onLast_concat, Node.addBranch], by simp,
    fun hdelse k hk => ?_⟩
  obtain ⟨hc, hb⟩ := hd hdelse
  rcases List.mem_append.mp hk with hk | hk
  · exact ht hc k hk
  · obtain rfl := List.mem_singleton.mp hk
    exact hb

end Chain

/-- Only a branch goes to the level of a chain. -/
theorem Entry.eq_branch_of_mem {e : Entry} {c : Chain} {cs : List Chain}
    (hnode : e.isBranch = false → ∀ d ∈ cs, d.level < c.level) (hc : c ∈ cs) :
    ∃ b, e = .branch b := by
  cases e with
  | node n => exact (Nat.lt_irrefl _ (hnode rfl c hc)).elim
  | branch b => exact ⟨b, rfl⟩

namespace Outliner

variable {P : List Part → Prop} {l : Line} {ls : List Line} {s t : Outliner} {level : Nat}

/-- What holds between two lines, if all parts of texts have the property `P`. -/
structure Sound (P : List Part → Prop) (s : Outliner) : Prop where
  leveled : s.Leveled
  children : Outline.Lined P [] s.template.children
  edge : Outline.OpenAt P s.frames.length s.template.children
  chains : ∀ c ∈ s.chains,
    ∃ body, Outline.listAt? c.level s.template.children = some body ∧ c.Ends body
  props : ∀ base ∈ s.propsLevel,
    base = 0 ∧ s.template.props ≠ none ∧ s.template.children = []
  classes : ∀ base ∈ s.classesLevel,
    base = 0 ∧ s.template.aliases ≠ none ∧ s.template.children = []
  apart : s.propsLevel = none ∨ s.classesLevel = none
  header : s.template.HeaderStands

theorem sound_start (span : Option Span) : (start span).Sound P where
  leveled := ⟨rfl, by simp [start]⟩
  children := ⟨[], rfl, by simp⟩
  edge := trivial
  chains := by simp [start]
  props := by simp [start]
  classes := by simp [start]
  apart := Or.inl rfl
  header := ⟨Or.inl ⟨rfl, rfl⟩, by simp [start], by simp [start]⟩

theorem Sound.note (h : s.Sound P) (ds : List Diagnostic) : (s.note ds).Sound P :=
  ⟨⟨h.leveled.frames, h.leveled.chains⟩, h.children, h.edge, h.chains, h.props, h.classes, h.apart,
    h.header⟩

/-- Narrowing keeps a state sound. -/
theorem Sound.narrows (h : s.Sound P) (ht : s.Narrows t) : t.Sound P where
  leveled := ht.leveled
  children := ht.template ▸ h.children
  edge := ht.template ▸ h.edge.mono ht.length
  chains c hc := ht.template ▸ h.chains c (ht.chains c hc).1
  props base hb := ht.template ▸ h.props base (ht.propsLevel base hb)
  classes base hb := ht.template ▸ h.classes base (ht.classesLevel base hb)
  apart := by
    rcases h.apart with hp | hc
    · refine Or.inl (Option.eq_none_iff_forall_not_mem.mpr fun base hb => ?_)
      simpa [hp] using ht.propsLevel base hb
    · refine Or.inr (Option.eq_none_iff_forall_not_mem.mpr fun base hb => ?_)
      simpa [hc] using ht.classesLevel base hb
  header := ht.template ▸ h.header

/-- The chains behind an entry are those of its list, and those above it. -/
theorem chains_enter {e : Entry} {opens : Bool} {children : List Node} (he : e.Stands P opens)
    {cs : List Chain}
    (hcs : ∀ c ∈ cs, c.level ≤ level ∧
      ∃ body, Outline.listAt? c.level children = some body ∧ c.Ends body)
    (hlist : ∃ body, Outline.listAt? level children = some body)
    (hnode : e.isBranch = false → ∀ c ∈ cs, c.level < level) :
    ∀ c ∈ e.chains level cs, ∃ body,
      Outline.listAt? c.level (Outline.modifyAt e.into level children) = some body ∧
        c.Ends body := by
  intro c hc
  rcases Entry.mem_chains hc with ⟨d, hd, hlevel, helse⟩ | ⟨rfl, branches, span, rfl⟩
  · obtain ⟨hle, body, hbody, hends⟩ := hcs d hd
    have hkeep : c.hasElse = false → d.hasElse = false := by
      intro hc
      by_contra hd
      simp [helse.mpr (Or.inl (by simpa using hd))] at hc
    rw [hlevel]
    rcases hle.lt_or_eq with hlt | rfl
    · rw [Outline.listAt?_modifyAt_of_lt _ hlt, hbody]
      exact ⟨_, rfl, (hends.mapBody _).mono hkeep⟩
    · obtain ⟨b, rfl⟩ := Entry.eq_branch_of_mem hnode hd
      rw [Outline.listAt?_modifyAt, hbody]
      refine ⟨_, rfl, hends.addBranch fun hc => ⟨hkeep hc, fun htest => ?_⟩⟩
      simp [helse.mpr (Or.inr ⟨rfl, by simp [Entry.isLast, htest]⟩)] at hc
  · cases he with
    | @conditional b _ _ _ htest =>
      obtain ⟨body, hbody⟩ := hlist
      rw [Outline.listAt?_modifyAt, hbody]
      exact ⟨_, rfl, body, [b], span, rfl, by simp, by simpa using htest⟩

theorem frames_enter (hframes : s.frames = down level) (e : Entry) (opens : Bool) :
    (s.enter level e opens).frames = down (level + if opens then 1 else 0) := by
  rw [Outliner.enter, hframes]
  cases opens with
  | false => rfl
  | true => exact (down_succ level).symm

theorem level_le_of_chains {e : Entry} {cs : List Chain} (hcs : ∀ c ∈ cs, c.level ≤ level) :
    ∀ c ∈ e.chains level cs, c.level ≤ level := by
  intro c hc
  rcases Entry.mem_chains hc with ⟨d, hd, hlevel, -⟩ | ⟨rfl, -⟩
  · exact hlevel ▸ hcs d hd
  · exact le_rfl

theorem Leveled.enter (h : s.Leveled) (hframes : s.frames = down level) (e : Entry)
    (opens : Bool) : (s.enter level e opens).Leveled := by
  have hframes' := frames_enter hframes e opens
  have hcs : ∀ c ∈ s.chains, c.level ≤ level := by
    intro c hc
    have := h.chains c hc
    rwa [hframes, length_down] at this
  refine ⟨by rw [hframes', length_down], fun c hc => ?_⟩
  rw [hframes', length_down]
  exact (level_le_of_chains hcs c hc).trans (Nat.le_add_right ..)

/-- An entry that stands keeps a state sound. -/
theorem Sound.enter {e : Entry} {opens : Bool} (h : s.Sound P) (hframes : s.frames = down level)
    (hp : s.propsLevel = none) (hc : s.classesLevel = none) (he : e.Stands P opens)
    (hbranch : e.isBranch = true → ∃ c ∈ s.chains, c.level = level ∧ c.hasElse = false)
    (hnode : e.isBranch = false → ∀ c ∈ s.chains, c.level < level) :
    (s.enter level e opens).Sound P := by
  have hlength : s.frames.length = level := by rw [hframes, length_down]
  have hedge : Outline.OpenAt P level s.template.children := hlength ▸ h.edge
  obtain ⟨hlined, hopen⟩ := Outline.lined_modifyAt_into he h.children hedge fun hb => by
    obtain ⟨c, hcm, rfl, helse⟩ := hbranch hb
    exact ⟨c, helse, h.chains c hcm⟩
  have hchains := chains_enter he
    (fun c hcm => ⟨hlength ▸ h.leveled.chains c hcm, h.chains c hcm⟩) hedge.exists_listAt? hnode
  refine ⟨h.leveled.enter hframes e opens, hlined, ?_, hchains, ?_, ?_, Or.inl hp, ?_⟩
  · rw [frames_enter hframes e opens, length_down]
    exact hopen
  · intro base hb
    rw [Outliner.enter, hp] at hb
    cases hb
  · intro base hb
    rw [Outliner.enter, hc] at hb
    cases hb
  · exact ⟨h.header.id, h.header.fields, h.header.aliases⟩

theorem Sound.declareId (h : s.Sound P) {v : Text} (hv : TemplateId.isValid v = true)
    (span : Span) : (s.declareId v span).Sound P :=
  ⟨⟨h.leveled.frames, h.leveled.chains⟩, h.children, h.edge, h.chains, h.props, h.classes, h.apart,
    ⟨Or.inr ⟨v, rfl, hv, rfl⟩, h.header.fields, h.header.aliases⟩⟩

theorem Sound.startProps (h : s.Sound P) (hchildren : s.template.children = [])
    (hclasses : s.classesLevel = none) (span : Span) : (s.startProps span).Sound P := by
  refine ⟨⟨h.leveled.frames, h.leveled.chains⟩, h.children, h.edge, h.chains, ?_, h.classes,
    Or.inr hclasses, h.header.id, ?_, h.header.aliases⟩
  · intro base hb
    obtain rfl : 0 = base := Option.some.inj hb
    exact ⟨rfl, by simp [Outliner.startProps], hchildren⟩
  · rintro p ⟨⟩
    simp

theorem Sound.startClasses (h : s.Sound P) (hchildren : s.template.children = [])
    (hprops : s.propsLevel = none) (span : Span) : (s.startClasses span).Sound P := by
  refine ⟨⟨h.leveled.frames, h.leveled.chains⟩, h.children, h.edge, h.chains, h.props, ?_,
    Or.inl hprops, h.header.id, h.header.fields, ?_⟩
  · intro base hb
    obtain rfl : 0 = base := Option.some.inj hb
    exact ⟨rfl, by simp [Outliner.startClasses], hchildren⟩
  · rintro b ⟨⟩
    simp

/-- A field keeps a state sound. -/
theorem Sound.addField (h : s.Sound P) {f : PropsField} (hf : IsField f) :
    (s.addField f).Sound P := by
  refine ⟨⟨h.leveled.frames, h.leveled.chains⟩, h.children, h.edge, h.chains, ?_, h.classes,
    h.apart, h.header.id, ?_, h.header.aliases⟩
  · intro base hb
    obtain ⟨hbase, hprops, hc⟩ := h.props base hb
    exact ⟨hbase, by simpa [Outliner.addField] using hprops, hc⟩
  · intro p hp g hg
    obtain ⟨q, hq, rfl⟩ := Option.map_eq_some_iff.mp hp
    rcases List.mem_append.mp hg with hg | hg
    · exact h.header.fields q hq g hg
    · obtain rfl := List.mem_singleton.mp hg
      exact hf

/-- An alias keeps a state sound. -/
theorem Sound.addAlias (h : s.Sound P) {a : ClassAlias} (ha : IsAlias a) :
    (s.addAlias a).Sound P := by
  refine ⟨⟨h.leveled.frames, h.leveled.chains⟩, h.children, h.edge, h.chains, h.props, ?_,
    h.apart, h.header.id, h.header.fields, ?_⟩
  · intro base hb
    obtain ⟨hbase, hclasses, hc⟩ := h.classes base hb
    exact ⟨hbase, by simpa [Outliner.addAlias] using hclasses, hc⟩
  · intro b hb g hg
    obtain ⟨q, hq, rfl⟩ := Option.map_eq_some_iff.mp hb
    rcases List.mem_append.mp hg with hg | hg
    · exact h.header.aliases q hq g hg
    · obtain rfl := List.mem_singleton.mp hg
      exact ha

/-- Reading a line keeps the invariant. -/
theorem Sound.transition (h : s.Sound P) (hs : Transition P l s t) : t.Sound P := by
  cases hs with
  | blank => exact h
  | dropped ht => exact (h.narrows ht).note _
  | id hp _ _ hv => exact ((h.narrows hp.narrows).declareId hv _).note _
  | props hp _ hc =>
    have hchildren := (congrArg Template.children hp.narrows.template).trans hc
    exact ((h.narrows hp.narrows).startProps hchildren hp.classesLevel _).note _
  | classes hp _ hc =>
    have hchildren := (congrArg Template.children hp.narrows.template).trans hc
    exact ((h.narrows hp.narrows).startClasses hchildren hp.propsLevel _).note _
  | field ht _ _ hf => exact (h.narrows ht).addField hf
  | classAlias ht _ _ ha => exact (h.narrows ht).addAlias ha
  | entry hp _ _ hread hbranch hnode =>
    exact ((h.narrows hp.narrows).enter hp.frames hp.propsLevel hp.classesLevel hread.stands
      hbranch hnode).note _

/-- A transition reports on its own line only. -/
theorem Transition.diagnostics (h : Transition P l s t) :
    ∃ ds, t.diagnostics = s.diagnostics ++ ds ∧ ∀ d ∈ ds, d.OnLine l.number := by
  cases h with
  | blank => exact ⟨[], by simp, by simp⟩
  | @dropped t ds ht _ hds => exact ⟨ds, by rw [note, ht.diagnostics], hds⟩
  | @id t content v jump span hp =>
    exact ⟨jump, by rw [note, declareId, hp.narrows.diagnostics], hp.onLine⟩
  | @props t content jump span hp =>
    exact ⟨jump, by rw [note, startProps, hp.narrows.diagnostics], hp.onLine⟩
  | @classes t content jump span hp =>
    exact ⟨jump, by rw [note, startClasses, hp.narrows.diagnostics], hp.onLine⟩
  | field ht => exact ⟨[], by rw [addField, ht.diagnostics, List.append_nil], by simp⟩
  | classAlias ht => exact ⟨[], by rw [addAlias, ht.diagnostics, List.append_nil], by simp⟩
  | @entry t content jump ds level m e opens hp _ hm hread =>
    refine ⟨jump ++ ds, by rw [note, Outliner.enter, hp.narrows.diagnostics], fun d hd => ?_⟩
    rcases List.mem_append.mp hd with hd | hd
    · exact hp.onLine d hd
    · exact hm ▸ hread.onLine d hd

/-! ## Runs -/

theorem Transition.leveled (h : Transition P l s t) (hs : s.Leveled) : t.Leveled := by
  cases h with
  | blank => exact hs
  | dropped ht => exact ⟨ht.leveled.frames, ht.leveled.chains⟩
  | id hp => exact ⟨hp.narrows.leveled.frames, hp.narrows.leveled.chains⟩
  | props hp => exact ⟨hp.narrows.leveled.frames, hp.narrows.leveled.chains⟩
  | classes hp => exact ⟨hp.narrows.leveled.frames, hp.narrows.leveled.chains⟩
  | field ht => exact ⟨ht.leveled.frames, ht.leveled.chains⟩
  | classAlias ht => exact ⟨ht.leveled.frames, ht.leveled.chains⟩
  | @entry t _ _ _ level _ e opens hp =>
    have h := hp.narrows.leveled.enter hp.frames e opens
    exact ⟨h.frames, h.chains⟩

/-- What is reported stays reported. -/
theorem subset_diagnostics_run (h : s.Leveled) (hl : ∀ l ∈ ls, Unbroken l.text) :
    ∀ d ∈ s.diagnostics, d ∈ (ls.foldl step s).diagnostics := by
  induction ls generalizing s with
  | nil => exact fun d => id
  | cons l ls ih =>
    have hstep := transition_step h (hl l List.mem_cons_self) (yields_true _)
    obtain ⟨ds, hds, -⟩ := hstep.diagnostics
    intro d hd
    refine ih (hstep.leveled h) (fun k hk => hl k (List.mem_cons_of_mem l hk)) d ?_
    rw [hds]
    exact List.mem_append_left _ hd

/-- A run without a report has none at any point. -/
theorem nil_of_run (h : s.Leveled) (hl : ∀ l ∈ ls, Unbroken l.text)
    (hnil : (ls.foldl step s).diagnostics = []) : s.diagnostics = [] :=
  List.eq_nil_iff_forall_not_mem.mpr fun d hd => by
    simpa [hnil] using subset_diagnostics_run h hl d hd

/-- Whatever is reported is an error. -/
theorem isError_run (h : s.Leveled) (hl : ∀ l ∈ ls, Unbroken l.text)
    (hs : ∀ d ∈ s.diagnostics, d.isError = true) :
    ∀ d ∈ (ls.foldl step s).diagnostics, d.isError = true := by
  induction ls generalizing s with
  | nil => exact hs
  | cons l ls ih =>
    have hstep := transition_step h (hl l List.mem_cons_self) (yields_true _)
    obtain ⟨ds, hds, hline⟩ := hstep.diagnostics
    refine ih (hstep.leveled h) (fun k hk => hl k (List.mem_cons_of_mem l hk)) fun d hd => ?_
    rw [hds] at hd
    rcases List.mem_append.mp hd with hd | hd
    · exact hs d hd
    · exact (hline d hd).isError

theorem sound_step (h : s.Sound P) (hl : Unbroken l.text)
    (hP : Pipe.Yields P (s.step l).diagnostics) : (s.step l).Sound P :=
  h.transition (transition_step h.leveled hl hP)

/-- A whole run keeps the invariant. -/
theorem sound_run (h : s.Sound P) (hl : ∀ l ∈ ls, Unbroken l.text)
    (hP : Pipe.Yields P (ls.foldl step s).diagnostics) : (ls.foldl step s).Sound P := by
  induction ls generalizing s with
  | nil => exact h
  | cons l ls ih =>
    have hline := hl l List.mem_cons_self
    have hls : ∀ k ∈ ls, Unbroken k.text := fun k hk => hl k (List.mem_cons_of_mem l hk)
    have hleveled := (transition_step h.leveled hline (yields_true _)).leveled h.leveled
    have hP' : Pipe.Yields P (s.step l).diagnostics :=
      hP.mono (subset_diagnostics_run hleveled hls)
    exact ih (sound_step h hline hP') hls hP

end Outliner

namespace Template

theorem unbroken_ofText (s : Text) : ∀ l ∈ Line.ofText (unifyNewlines s), Unbroken l.text :=
  fun _ h => unbroken_of_mem_lines (Line.le_of_mem_numberFrom h).2

/-- Whatever is reported about a template is an error. -/
theorem isError_read (s : Text) : ∀ d ∈ (read s).diagnostics, d.isError = true := by
  have hs := Outliner.sound_start (P := fun _ => True) (some (wholeSpan (unifyNewlines s)))
  have hrun := Outliner.isError_run hs.leveled (unbroken_ofText s) (by simp [Outliner.start])
  intro d hd
  rcases List.mem_append.mp hd with hd | hd
  · exact hrun d hd
  · rcases List.mem_append.mp hd with hd | hd
    · obtain ⟨span, -, rfl⟩ := List.mem_map.mp hd
      rfl
    · obtain ⟨span, -, rfl⟩ := List.mem_map.mp hd
      rfl

/-- A template has errors as soon as anything is reported. -/
theorem hasErrors_read (s : Text) : (read s).hasErrors = true ↔ (read s).diagnostics ≠ [] := by
  rw [Reading.hasErrors, Diagnostic.anyError, List.any_eq_true]
  constructor
  · rintro ⟨d, hd, -⟩ hnil
    simp [hnil] at hd
  · intro hne
    obtain ⟨d, ds, hds⟩ := List.exists_cons_of_ne_nil hne
    exact ⟨d, by simp [hds], isError_read s d (by simp [hds])⟩

/-- A template that is read stands, and so does its header. -/
theorem sound_outline {P : List Part → Prop} {s : Text}
    (hP : Pipe.Yields P (outline (unifyNewlines s)).diagnostics) :
    (outline (unifyNewlines s)).Sound P :=
  Outliner.sound_run (Outliner.sound_start _) (unbroken_ofText s) hP

theorem headerStands_read (s : Text) : (read s).template.HeaderStands :=
  (sound_outline (P := fun _ => True) (Outliner.yields_true _)).header

/-- Every node of a template that is read stands, whatever is said of the parts of its texts. -/
theorem stands_read (s : Text) : ∀ n ∈ (read s).template.children, n.Stands fun _ => True :=
  Outline.lined_nil.mp (sound_outline (Outliner.yields_true _)).children

end Template

end Offside
