import Offside.Proofs.Template.Step

/-! The transitions between two lines. Reading a line first closes what the line ends; what it then
comes to is one of the cases of `Transition`. -/
namespace Offside

open Text

namespace Outliner

variable {P : List Part → Prop} {l : Line} {s t : Outliner} {level : Nat} {content : Text}

/-- The levels of the lines that can take children have no gap. -/
structure Leveled (s : Outliner) : Prop where
  frames : s.frames = down s.frames.length
  chains : ∀ c ∈ s.chains, c.level ≤ s.frames.length

/-- Some of what was open is closed, and nothing else happens. -/
structure Narrows (s t : Outliner) : Prop where
  template : t.template = s.template
  diagnostics : t.diagnostics = s.diagnostics
  frames : t.frames = down t.frames.length
  length : t.frames.length ≤ s.frames.length
  chains : ∀ c ∈ t.chains, c ∈ s.chains ∧ c.level ≤ t.frames.length
  propsLevel : ∀ base ∈ t.propsLevel, base ∈ s.propsLevel
  classesLevel : ∀ base ∈ t.classesLevel, base ∈ s.classesLevel

/-- All that the line ends is closed, and it stands at a level. A line that is too deep is moved up,
and `jump` says so. -/
structure Placed (l : Line) (s t : Outliner) (level : Nat) (content : Text)
    (jump : List Diagnostic) : Prop where
  narrows : s.Narrows t
  frames : t.frames = down level
  propsLevel : t.propsLevel = none
  classesLevel : t.classesLevel = none
  margin : ∃ deeper, Margin.ofLine l.text = .level deeper content ∧ level ≤ deeper ∧
    (jump = [] → level = deeper) ∧
    ∀ base, base ∈ s.propsLevel ∨ base ∈ s.classesLevel → deeper ≤ base
  onLine : ∀ d ∈ jump, d.OnLine l.number

/-- What reading a line can come to. -/
inductive Transition (P : List Part → Prop) (l : Line) (s : Outliner) : Outliner → Prop
  | blank : Blank l.text → Transition P l s s
  | dropped {t : Outliner} {ds : List Diagnostic} : s.Narrows t → ds ≠ [] →
      (∀ d ∈ ds, d.OnLine l.number) → Transition P l s (t.note ds)
  | id {t : Outliner} {content v : Text} {jump : List Diagnostic} {span : Span} :
      Placed l s t 0 content jump → LineKind.ofText content = .id → s.template.rawId = none →
      TemplateId.isValid v = true → ink content = ['#', 'i', 'd'] ++ v →
      span.start.line = l.number → Transition P l s ((t.declareId v span).note jump)
  | props {t : Outliner} {content : Text} {jump : List Diagnostic} {span : Span} :
      Placed l s t 0 content jump → LineKind.ofText content = .props → s.template.children = [] →
      s.template.props = none → span.start.line = l.number →
      Transition P l s ((t.startProps span).note jump)
  | classes {t : Outliner} {content : Text} {jump : List Diagnostic} {span : Span} :
      Placed l s t 0 content jump → LineKind.ofText content = .classes →
      s.template.children = [] → s.template.aliases = none → span.start.line = l.number →
      Transition P l s ((t.startClasses span).note jump)
  | field {t : Outliner} {content : Text} {base : Nat} {f : PropsField} : s.Narrows t →
      t.propsLevel = some base → Margin.ofLine l.text = .level (base + 1) content → IsField f →
      (∃ span : Span, f.span = some span ∧ span.start.line = l.number) →
      ink content = f.name ++ (if f.optional then ['?'] else []) ++ ':' :: ink f.typeText →
      Transition P l s (t.addField f)
  | classAlias {t : Outliner} {content right : Text} {base : Nat} {a : ClassAlias} : s.Narrows t →
      t.classesLevel = some base → Margin.ofLine l.text = .level (base + 1) content → IsAlias a →
      (∃ span : Span, a.span = some span ∧ span.start.line = l.number) →
      ink content = a.name ++ '=' :: right →
      (a.classes.flatMap ('.' :: ·) = right ∨
        right.head? ≠ some '.' ∧ a.classes.flatMap ('.' :: ·) = '.' :: right) →
      Transition P l s (t.addAlias a)
  | entry {t : Outliner} {content : Text} {jump ds : List Diagnostic} {level : Nat} {m : Mark}
      {e : Entry} {opens : Bool} : Placed l s t level content jump →
      (LineKind.ofText content).isHeader = false → m.line = l.number →
      Entry.Reading P m content e opens ds →
      (e.isBranch = true → ∃ c ∈ t.chains, c.level = level ∧ c.hasElse = false) →
      (e.isBranch = false → ∀ c ∈ t.chains, c.level < level) →
      Transition P l s ((t.enter level e opens).note (jump ++ ds))

theorem Leveled.narrows (h : s.Leveled) : s.Narrows s :=
  ⟨rfl, rfl, h.frames, le_rfl, fun c hc => ⟨hc, h.chains c hc⟩, fun _ => id, fun _ => id⟩

theorem Leveled.narrows_closeHeaders (h : s.Leveled) (level : Nat) :
    s.Narrows (s.closeHeaders level) := by
  refine ⟨rfl, rfl, h.frames, le_rfl, fun c hc => ⟨hc, h.chains c hc⟩, ?_, ?_⟩
  · intro base hbase
    exact (Option.filter_eq_some_iff.mp hbase).1
  · intro base hbase
    exact (Option.filter_eq_some_iff.mp hbase).1

theorem nextLevel_eq (h : s.Leveled) : s.nextLevel = s.frames.length := by
  rw [nextLevel, h.frames, length_down]
  cases s.frames.length with
  | zero => rfl
  | succ k => rw [down_succ]

/-- What a line at a level ends is closed before the line is read. -/
theorem Leveled.narrows_settle (h : s.Leveled) (hlevel : level ≤ s.frames.length)
    (kind : LineKind) : s.Narrows (s.settle level kind) ∧
      (s.settle level kind).frames = down level ∧
      (kind.continuesChain = false → ∀ c ∈ (s.settle level kind).chains, c.level < level) := by
  have hframes : (s.settle level kind).frames = down level := by
    rw [settle, h.frames]
    simp only
    rw [dropWhile_down, Nat.min_eq_left hlevel]
  have hopen : ∀ c ∈ (s.settle level kind).chains, c ∈ s.chains ∧ c.level ≤ level ∧
      (kind.continuesChain = false → c.level < level) := by
    intro c hc
    obtain ⟨hmem, hc⟩ := List.mem_filter.mp hc
    simp only [Bool.or_eq_true, Bool.and_eq_true, decide_eq_true_eq, beq_iff_eq] at hc
    refine ⟨hmem, ?_, fun hk => ?_⟩
    · rcases hc with hc | hc
      · exact hc.le
      · exact hc.1.le
    · rcases hc with hc | hc
      · exact hc
      · simp [hk] at hc
  refine ⟨⟨rfl, rfl, ?_, ?_, fun c hc => ⟨(hopen c hc).1, ?_⟩, fun _ => id, fun _ => id⟩, hframes,
    fun hk c hc => (hopen c hc).2.2 hk⟩
  · rw [hframes, length_down]
  · rwa [hframes, length_down]
  · rw [hframes, length_down]
    exact (hopen c hc).2.1

theorem Narrows.leveled (h : s.Narrows t) : t.Leveled := ⟨h.frames, fun c hc => (h.chains c hc).2⟩

theorem Narrows.trans {u : Outliner} (h : s.Narrows t) (h' : t.Narrows u) : s.Narrows u where
  template := h'.template.trans h.template
  diagnostics := h'.diagnostics.trans h.diagnostics
  frames := h'.frames
  length := h'.length.trans h.length
  chains c hc := ⟨(h.chains c (h'.chains c hc).1).1, (h'.chains c hc).2⟩
  propsLevel base hb := h.propsLevel base (h'.propsLevel base hb)
  classesLevel base hb := h.classesLevel base (h'.classesLevel base hb)

/-- Without a report the line is not moved up. -/
theorem Placed.margin_of_nil (h : Placed l s t level content []) :
    Margin.ofLine l.text = .level level content ∧
      ∀ base, base ∈ s.propsLevel ∨ base ∈ s.classesLevel → level ≤ base := by
  obtain ⟨deeper, hmargin, -, hdeeper, hbase⟩ := h.margin
  obtain rfl := hdeeper rfl
  exact ⟨hmargin, hbase⟩

theorem Drops.transition {u : Outliner} {jump : List Diagnostic} {line : Nat}
    (h : (t.note jump).Drops u line) (hline : line = l.number) (ht : s.Narrows t)
    (hjump : ∀ d ∈ jump, d.OnLine l.number) : Transition P l s u := by
  obtain ⟨ds, hne, hds, rfl⟩ := h
  rw [note_note]
  refine Transition.dropped ht (by simp [hne]) fun d hd => ?_
  rcases List.mem_append.mp hd with hd | hd
  · exact hjump d hd
  · exact hline ▸ hds d hd

theorem Drops.transition_of_narrows {u : Outliner} {line : Nat} (h : t.Drops u line)
    (hline : line = l.number) (ht : s.Narrows t) : Transition P l s u := by
  rw [← note_nil t] at h
  exact h.transition hline ht (by simp)

/-- A line of a kind, read where it belongs, does what a transition may do. -/
theorem transition_readKind {jump : List Diagnostic} {m : Mark}
    (ht : Placed l s t level content jump) (hm : m.line = l.number) (hs : EndsSolid content)
    (hl : OneLine content) (hchains : (LineKind.ofText content).continuesChain = false →
      ∀ c ∈ t.chains, c.level < level)
    (hP : Pipe.Yields P
      ((t.note jump).readKind m level content (LineKind.ofText content)).diagnostics) :
    Transition P l s ((t.note jump).readKind m level content (LineKind.ofText content)) := by
  have htemplate := ht.narrows.template
  have hheads := LineKind.heads_ofText content
  obtain ⟨kind, hkind⟩ : ∃ kind, LineKind.ofText content = kind := ⟨_, rfl⟩
  rw [hkind] at hheads hchains hP ⊢
  by_cases hheader : kind.isHeader = true
  · cases kind with
    | id =>
      obtain ⟨rest, rfl⟩ := hheads
      rcases (t.note jump).readId_cases m level rest with
        h | ⟨rfl, hraw, v, span, hv, hink, hspan, h⟩
      · exact h.transition hm ht.narrows ht.onLine
      · rw [readKind, h]
        exact Transition.id ht hkind (htemplate ▸ hraw) hv hink (by rw [hspan, hm])
    | props =>
      rcases (t.note jump).openProps_cases m level content with h | ⟨rfl, hc, hp, span, hspan, h⟩
      · exact h.transition hm ht.narrows ht.onLine
      · rw [readKind, h]
        exact Transition.props ht hkind (htemplate ▸ hc) (htemplate ▸ hp) (by rw [hspan, hm])
    | classes =>
      rcases (t.note jump).openClasses_cases m level content with h | ⟨rfl, hc, hp, span, hspan, h⟩
      · exact h.transition hm ht.narrows ht.onLine
      · rw [readKind, h]
        exact Transition.classes ht hkind (htemplate ▸ hc) (htemplate ▸ hp) (by rw [hspan, hm])
    | _ => cases hheader
  · rw [Bool.not_eq_true] at hheader
    have hlen : (t.note jump).frames.length = level := by
      rw [note, ht.frames, length_down]
    rcases readKind_cases hheads hheader hlen hs hl hP with
      h | ⟨e, opens, ds, hread, hbranch, hchain, h⟩
    · exact h.transition hm ht.narrows ht.onLine
    · have h' : (t.note jump).readKind m level content kind =
          (t.enter level e opens).note (jump ++ ds) := by
        rw [h, ← note_note]
        rfl
      rw [h']
      refine Transition.entry ht (hkind ▸ hheader) hm hread ?_ ?_
      · rw [hbranch]
        exact hchain
      · rw [hbranch]
        exact hchains

/-- What the line ends can be closed before it is reported that the line is too deep. -/
theorem readBody_eq (s : Outliner) (m : Mark) (deeper : Nat) (content : Text) :
    s.readBody m deeper content =
      ((s.settle (min deeper s.nextLevel) (LineKind.ofText content)).note
        (if s.nextLevel < deeper then [m.diagnose .indentJump 1] else [])).readKind m
          (min deeper s.nextLevel) content (LineKind.ofText content) := by
  rw [readBody]
  split
  · rfl
  · rw [note_nil]

/-- A line outside the header blocks. -/
theorem transition_readBody {m : Mark} {deeper : Nat} {s₀ : Outliner} (h₀ : s₀.Narrows s)
    (hmargin : Margin.ofLine l.text = .level deeper content) (hp : s.propsLevel = none)
    (hc : s.classesLevel = none)
    (hbase : ∀ base, base ∈ s₀.propsLevel ∨ base ∈ s₀.classesLevel → deeper ≤ base)
    (hm : m.line = l.number) (hs : EndsSolid content)
    (hl : OneLine content) (hP : Pipe.Yields P (s.readBody m deeper content).diagnostics) :
    Transition P l s₀ (s.readBody m deeper content) := by
  have h := h₀.leveled
  obtain ⟨jump, hjump⟩ : ∃ jump, jump =
    if s.nextLevel < deeper then [m.diagnose .indentJump 1] else [] := ⟨_, rfl⟩
  obtain ⟨level, hlevel⟩ : ∃ level, level = min deeper s.nextLevel := ⟨_, rfl⟩
  have hbody : s.readBody m deeper content =
      ((s.settle level (LineKind.ofText content)).note jump).readKind m level content
        (LineKind.ofText content) := by
    rw [hjump, hlevel]
    exact s.readBody_eq m deeper content
  have hnext := nextLevel_eq h
  obtain ⟨hnarrows, hframes, hchains⟩ := h.narrows_settle (show level ≤ s.frames.length by omega)
    (LineKind.ofText content)
  have hplaced : Placed l s₀ (s.settle level (LineKind.ofText content)) level content jump := by
    refine ⟨h₀.trans hnarrows, hframes, hp, hc, ⟨deeper, hmargin, by omega, ?_, hbase⟩, ?_⟩
    · intro hnil
      rw [hnil] at hjump
      split at hjump
      · cases hjump
      · omega
    · intro d hd
      rw [hjump] at hd
      split at hd
      · obtain rfl := List.mem_singleton.mp hd
        exact hm ▸ m.diagnose_onLine _ _
      · cases hd
  rw [hbody] at hP ⊢
  exact transition_readKind hplaced hm hs hl hchains hP

/-- Reading a line comes to one of the cases. -/
theorem transition_step (h : s.Leveled) (hl : Unbroken l.text)
    (hP : Pipe.Yields P (s.step l).diagnostics) : Transition P l s (s.step l) := by
  obtain ⟨margin, hmargin⟩ : ∃ margin, Margin.ofLine l.text = margin := ⟨_, rfl⟩
  rw [step, hmargin] at hP ⊢
  cases margin with
  | blank => exact Transition.blank (Margin.ofLine_blank.mp hmargin)
  | tab column => exact (s.drops_report (l.mark column) .tab 1).transition_of_narrows rfl h.narrows
  | odd column =>
    exact (s.drops_report (l.mark column) .oddIndent 1).transition_of_narrows rfl h.narrows
  | level level content =>
    obtain ⟨hs, hone⟩ := Margin.content_of_level hmargin hl
    have hclose := h.narrows_closeHeaders level
    simp only [readLevel] at hP ⊢
    cases hprops : (s.closeHeaders level).propsLevel with
    | some base =>
      rw [hprops] at hP
      simp only
      rcases (s.closeHeaders level).readField_cases (l.mark (2 * level + 1)) base level content with
        hd | ⟨rfl, f, hf, he⟩
      · exact hd.transition_of_narrows rfl hclose
      · obtain ⟨hfield, hspan, hink⟩ := PropsField.read_ok hf hone
        rw [he]
        exact Transition.field hclose hprops hmargin hfield hspan hink
    | none =>
      cases hclasses : (s.closeHeaders level).classesLevel with
      | some base =>
        rw [hprops, hclasses] at hP
        simp only
        rcases (s.closeHeaders level).readAlias_cases (l.mark (2 * level + 1)) base level content
          with hd | ⟨rfl, a, ha, he⟩
        · exact hd.transition_of_narrows rfl hclose
        · obtain ⟨halias, hspan, right, hink, hright⟩ := ClassAlias.read_ok ha
          rw [he]
          exact Transition.classAlias hclose hclasses hmargin halias hspan hink hright
      | none =>
        rw [hprops, hclasses] at hP
        simp only
        refine transition_readBody hclose hmargin hprops hclasses ?_ rfl hs hone hP
        rintro base (hb | hb)
        · simpa using Option.filter_eq_none_iff.mp hprops base hb
        · simpa using Option.filter_eq_none_iff.mp hclasses base hb

end Outliner

end Offside
