import Offside.Proofs.Template.Flush
import Offside.Proofs.Template.Rebuild
import Offside.Proofs.Template.Shallow

/-! Reading the header of a template. The lines of each section give the section back, as long as
nothing but sections has been read before. Fields and aliases that are not written two spaces in are
reported. -/
namespace Offside

open Text

namespace Outliner

variable {s t : Outliner} {u : Template} {o : Layout} {c v : Text} {l : Line} {ls : List Line}

/-- Nothing but sections of the header has been read. -/
structure Heading (s : Outliner) : Prop where
  frames : s.frames = []
  chains : s.chains = []
  children : s.template.children = []
  props : ∀ base ∈ s.propsLevel, base = 0
  classes : ∀ base ∈ s.classesLevel, base = 0
  diagnostics : s.diagnostics = []

theorem heading_start (span : Option Span) : (start span).Heading :=
  ⟨rfl, rfl, rfl, by simp [start], by simp [start], rfl⟩

theorem Heading.ready (h : s.Heading) : s.Ready 0 where
  leveled := ⟨by simp [h.frames], by simp [h.chains]⟩
  level_le := Nat.zero_le _
  props _ _ := Nat.zero_le _
  classes _ _ := Nat.zero_le _

def close (s : Outliner) : Outliner := { s with propsLevel := none, classesLevel := none }

/-- A line at the left margin closes the blocks. -/
theorem Heading.step_eq (h : s.Heading) (htrim : Trimmed c) (hone : OneLine c) (hl : l.text = c) :
    s.step l = (close s).readKind (l.mark 1) 0 c (LineKind.ofText c) := by
  have hl' : l.text = indentation 2 0 ++ c := by
    rw [hl]
    rfl
  have hsettle : ∀ kind, (close s).settle 0 kind = close s := by
    intro kind
    simp [settle, close, h.frames, h.chains]
  have hclose : s.closeHeaders 0 = close s := closeHeaders_of_ready h.ready
  rw [step_of_ready h.ready htrim hone hl', ended, hclose, hsettle]

/-- An id line is read where there has been none. -/
theorem Heading.read_id (h : s.Heading) (hv : TemplateId.isValid v = true)
    (hraw : s.template.rawId = none) (hl : l.text = ['#', 'i', 'd', ' '] ++ v) :
    ∃ span, (s.step l).Heading ∧ (s.step l).template = (s.declareId v span).template := by
  obtain ⟨htrim, hone⟩ := TemplateId.trimmed_written hv
  obtain ⟨at_, -, hread⟩ := TemplateId.read_write hv (l.mark 1)
  have hid : (close s).readId (l.mark 1) 0 (['#', 'i', 'd', ' '] ++ v) =
      (close s).declareId v (at_.span v.length) := by
    rw [readId, if_neg (by simp [LineKind.atWordEnd_space]), if_neg (by simp),
      if_neg (by simp [close, hraw]), hread]
    rfl
  rw [h.step_eq htrim hone hl, LineKind.ofText_id, readKind, hid]
  exact ⟨at_.span v.length, ⟨h.frames, h.chains, h.children, by simp [close, declareId],
    by simp [close, declareId], h.diagnostics⟩, rfl⟩

/-- Behind the line that opens the props block and some fields. -/
structure InProps (u : Template) (span : Option Span) (fields : List PropsField) (s : Outliner) :
    Prop where
  heading : s.Heading
  propsLevel : s.propsLevel = some 0
  template : s.template = { u with props := some ⟨fields, span⟩ }

/-- Behind the line that opens the classes block and some aliases. -/
structure InClasses (u : Template) (span : Option Span) (aliases : List ClassAlias)
    (s : Outliner) : Prop where
  heading : s.Heading
  propsLevel : s.propsLevel = none
  classesLevel : s.classesLevel = some 0
  template : s.template = { u with aliases := some ⟨aliases, span⟩ }

theorem Heading.read_props (h : s.Heading) (hprops : s.template.props = none)
    (hl : l.text = ['p', 'r', 'o', 'p', 's']) :
    ∃ span, InProps s.template span [] (s.step l) := by
  have hkind : LineKind.ofText ['p', 'r', 'o', 'p', 's'] = .props := rfl
  have hopen : (close s).openProps (l.mark 1) 0 ['p', 'r', 'o', 'p', 's'] =
      (close s).startProps ((l.mark 1).span 5) := by
    rw [openProps, if_neg (by simp), if_neg (by simp [close, h.children, hprops])]
    rfl
  rw [h.step_eq (solid_props.trimmed (by simp)) solid_props.oneLine hl, hkind, readKind, hopen]
  exact ⟨(l.mark 1).span 5, ⟨⟨h.frames, h.chains, h.children, by simp [startProps],
    by simp [close, startProps], h.diagnostics⟩, rfl, rfl⟩⟩

theorem Heading.read_classes (h : s.Heading) (haliases : s.template.aliases = none)
    (hl : l.text = ['c', 'l', 'a', 's', 's', 'e', 's']) :
    ∃ span, InClasses s.template span [] (s.step l) := by
  have hkind : LineKind.ofText ['c', 'l', 'a', 's', 's', 'e', 's'] = .classes := rfl
  have hopen : (close s).openClasses (l.mark 1) 0 ['c', 'l', 'a', 's', 's', 'e', 's'] =
      (close s).startClasses ((l.mark 1).span 7) := by
    rw [openClasses, if_neg (by simp), if_neg (by simp [close, h.children, haliases])]
    rfl
  rw [h.step_eq (solid_classes.trimmed (by simp)) solid_classes.oneLine hl, hkind, readKind, hopen]
  exact ⟨(l.mark 1).span 7, ⟨⟨h.frames, h.chains, h.children, by simp [close, startClasses],
    by simp [startClasses], h.diagnostics⟩, rfl, rfl, rfl⟩⟩

/-! ## Fields and aliases -/

theorem step_field {f : PropsField} (hf : IsField f) (hp : s.propsLevel = some 0)
    (hl : l.text = indentation 2 1 ++ f.written o) :
    ∃ g, g.bare = f.bare ∧ s.step l =
      ({ s with classesLevel := s.classesLevel.filter (· < 1) } : Outliner).addField g := by
  obtain ⟨htrim, hone⟩ := PropsField.trimmed_written hf o
  have hmargin : Margin.ofLine l.text = .level 1 (f.written o) := by
    rw [hl]
    exact Margin.ofLine_written htrim hone 1
  obtain ⟨g, hread, hg⟩ := PropsField.read_write hf o (l.mark 3)
  refine ⟨g, hg, ?_⟩
  rw [step, hmargin]
  simp [readLevel, closeHeaders, hp, Option.filter_some, readField, hread, addField]

theorem step_alias {a : ClassAlias} (ha : IsAlias a) (hp : s.propsLevel = none)
    (hc : s.classesLevel = some 0) (hl : l.text = indentation 2 1 ++ a.written) :
    ∃ b, b.bare = a.bare ∧ s.step l = s.addAlias b := by
  obtain ⟨htrim, hone⟩ := ClassAlias.trimmed_written ha
  have hmargin : Margin.ofLine l.text = .level 1 a.written := by
    rw [hl]
    exact Margin.ofLine_written htrim hone 1
  obtain ⟨b, hread, hb⟩ := ClassAlias.read_write ha (l.mark 3)
  refine ⟨b, hb, ?_⟩
  rw [step, hmargin]
  simp [readLevel, closeHeaders, hp, hc, Option.filter_some, readAlias, hread, addAlias]

/-- Lines that each give one field or alias give them all, in their order. -/
theorem exists_attributes {α : Type} {bare : α → α} {written : α → Text} {good : α → Prop}
    {read : List α → Outliner → Prop}
    (hstep : ∀ {as a s l}, read as s → good a → l.text = indentation 2 1 ++ written a →
      ∃ b, bare b = bare a ∧ read (as ++ [b]) (s.step l))
    {as bs : List α} (hbs : ∀ b ∈ bs, good b) (h : read as s)
    (hls : ls.map Line.text = bs.map (indentation 2 1 ++ written ·)) :
    ∃ bs', bs'.map bare = bs.map bare ∧ read (as ++ bs') (ls.foldl step s) := by
  induction bs generalizing as s ls with
  | nil =>
    obtain rfl : ls = [] := List.map_eq_nil_iff.mp hls
    exact ⟨[], rfl, by rwa [List.append_nil]⟩
  | cons b bs ih =>
    obtain ⟨l, ls', rfl, hl, hls'⟩ := exists_cons_of_map hls
    obtain ⟨c, hc, hread⟩ := hstep h (hbs b List.mem_cons_self) hl
    obtain ⟨bs', hmap, hread'⟩ := ih (fun k hk => hbs k (List.mem_cons_of_mem b hk)) hread hls'
    refine ⟨c :: bs', by rw [List.map_cons, List.map_cons, hc, hmap], ?_⟩
    rwa [List.append_assoc] at hread'

theorem InProps.step {span : Option Span} {fields : List PropsField} {f : PropsField}
    (h : InProps u span fields s) (hf : IsField f) (hl : l.text = indentation 2 1 ++ f.written o) :
    ∃ g, g.bare = f.bare ∧ InProps u span (fields ++ [g]) (s.step l) := by
  obtain ⟨hheading, hopen, htemplate⟩ := h
  obtain ⟨g, hg, hstep⟩ := step_field hf hopen hl
  rw [hstep]
  refine ⟨g, hg, ⟨hheading.frames, hheading.chains, hheading.children, hheading.props,
    fun base hb => ?_, hheading.diagnostics⟩, hopen, ?_⟩
  · exact hheading.classes base (Option.filter_eq_some_iff.mp hb).1
  · simp [addField, htemplate]

theorem InClasses.step {span : Option Span} {aliases : List ClassAlias} {a : ClassAlias}
    (h : InClasses u span aliases s) (ha : IsAlias a)
    (hl : l.text = indentation 2 1 ++ a.written) :
    ∃ b, b.bare = a.bare ∧ InClasses u span (aliases ++ [b]) (s.step l) := by
  obtain ⟨hheading, hclosed, hopen, htemplate⟩ := h
  obtain ⟨b, hb, hstep⟩ := step_alias ha hclosed hopen hl
  rw [hstep]
  refine ⟨b, hb, ⟨hheading.frames, hheading.chains, hheading.children, hheading.props,
    hheading.classes, hheading.diagnostics⟩, hclosed, hopen, ?_⟩
  simp [addAlias, htemplate]

/-! ## Fields and aliases out of place -/

/-- What follows the name of a field or of an alias and follows no name of an element. -/
def Strays (rest : Text) : Prop :=
  ∃ gap c s, rest = gap ++ c :: s ∧ Blank gap ∧ (c = '?' ∨ c = ':' ∨ c = '=')

theorem strays_field (f : PropsField) (o : Layout) :
    ∃ rest, f.written o = f.name ++ rest ∧ Strays rest := by
  obtain ⟨name, optional, typeText, span⟩ := f
  refine ⟨(if optional then ['?'] else []) ++
    ((if o.spacedProps then [':', ' '] else [':']) ++ typeText), by simp [PropsField.written], ?_⟩
  cases optional with
  | true => exact ⟨[], '?', _, rfl, blank_nil, Or.inl rfl⟩
  | false =>
    cases o.spacedProps with
    | true => exact ⟨[], ':', ' ' :: typeText, rfl, blank_nil, Or.inr (Or.inl rfl)⟩
    | false => exact ⟨[], ':', typeText, rfl, blank_nil, Or.inr (Or.inl rfl)⟩

theorem strays_alias (a : ClassAlias) : ∃ rest, a.written = a.name ++ rest ∧ Strays rest :=
  ⟨[' ', '=', ' '] ++ a.classes.flatMap ('.' :: ·), by simp [ClassAlias.written],
    [' '], '=', _, rfl, blank_space, Or.inr (Or.inr rfl)⟩

/-- What strays behind a name is an error. -/
theorem readTail_stray {rest : Text} (h : Strays rest) (m : Mark) :
    ∃ e, Selector.readTail m .between rest = .error e := by
  obtain ⟨gap, c, s, rfl, hgap, hc⟩ := h
  induction gap generalizing m with
  | nil =>
    refine ⟨m.diagnose .elementTail 1, ?_⟩
    rcases hc with rfl | rfl | rfl <;> simp [Selector.readTail, Selector.Place.takes, isBlank]
  | cons b gap ih =>
    obtain ⟨e, he⟩ := ih (m.right 1) fun d hd => hgap d (List.mem_cons_of_mem b hd)
    refine ⟨e, ?_⟩
    rw [List.cons_append, Selector.readTail, if_neg (by simp [Selector.Place.takes]),
      if_neg (by decide), if_pos (hgap b List.mem_cons_self), he]
    rfl

/-- A field or an alias at the left margin reads as an element, and is none. -/
theorem readElement_stray {name rest : Text} (hn : IsIdentifier name) (h : Strays rest) (m : Mark) :
    LineKind.ofText (name ++ rest) = .element ∧
      ∃ e, Node.readElement m (name ++ rest) = .error e := by
  obtain ⟨c, u, rfl, hc⟩ := hn.starts
  obtain ⟨gap, d, s, hrest, hgap, hd⟩ := id h
  have hword : isAsciiWord d = false ∧ Selector.isNameChar d = false := by
    rcases hd with rfl | rfl | rfl <;> decide
  have hmem : d ∈ c :: u ++ rest := by simp [hrest]
  have hne : ∀ w : Text, (∀ b ∈ w, isAsciiWord b = true) → c :: u ++ rest ≠ w := by
    rintro w hw rfl
    simp [hw d hmem] at hword
  refine ⟨LineKind.ofText_element (hn.chars c List.mem_cons_self)
    (hne _ (List.all_eq_true.mp rfl)) (hne _ (List.all_eq_true.mp rfl)), ?_⟩
  have htake : (c :: u ++ rest).takeWhile Selector.isNameChar = c :: u := by
    have hchars : ∀ b ∈ c :: u, Selector.isNameChar b = true := by
      intro b hb
      have := hn.chars b hb
      simp only [isAsciiWord, Bool.or_eq_true] at this
      simp only [Selector.isNameChar, Bool.or_eq_true]
      tauto
    rw [List.takeWhile_append_of_pos hchars]
    cases gap with
    | nil => simp [hrest, hword.2]
    | cons b gap =>
      have hb : Selector.isNameChar b = false := by
        by_contra hb
        have := Selector.isBlank_of_isNameChar (by simpa using hb)
        simp [hgap b List.mem_cons_self] at this
      simp [hrest, hb]
  rw [List.cons_append, Node.readElement]
  split
  · obtain ⟨e, he⟩ := readTail_stray h (m.right (c :: u).length)
    refine ⟨e, ?_⟩
    rw [← List.cons_append, htake]
    dsimp only
    rw [List.drop_left, he]
    rfl
  · exact ⟨_, rfl⟩

theorem Heading.shallow (h : s.Heading) (hs : s.Sound fun _ => True) : s.Shallow :=
  ⟨hs, by simp [h.frames]⟩

/-- A field or an alias that is not two spaces in is reported. -/
theorem Heading.ne_nil_of_stray {name rest : Text} (h : s.Heading) (hs : s.Sound fun _ => True)
    (ho : o.indentSize ≠ 2) (hn : IsIdentifier name) (hrest : Strays rest)
    (htrim : Trimmed (name ++ rest)) (hone : OneLine (name ++ rest))
    (hl : l.text = indentation o.indentSize 1 ++ (name ++ rest)) : (s.step l).diagnostics ≠ [] := by
  intro hnil
  have hspaces : Margin.spaces l.text = o.indentSize.toNat * 1 :=
    hl ▸ Margin.spaces_of_trimmed htrim _
  have hunbroken : Unbroken l.text := hl ▸ Margin.unbroken_of_oneLine hone _
  have hblank : ¬ Blank l.text := hl ▸ Margin.not_blank_of_trimmed htrim _
  rcases (h.shallow hs).step hunbroken hblank hnil with htwo | ⟨hzero, -⟩
  · omega
  · have hl' : l.text = name ++ rest := by
      rw [hl, indentation, ← hspaces, hzero]
      rfl
    obtain ⟨hkind, e, he⟩ := readElement_stray hn hrest (l.mark 1)
    rw [h.step_eq htrim hone hl', hkind, readKind, he] at hnil
    simp [note] at hnil

/-- A field or an alias as it is written. -/
structure IsAttribute (w : Text) : Prop where
  trimmed : Trimmed w
  oneLine : OneLine w
  strays : ∃ name rest, w = name ++ rest ∧ IsIdentifier name ∧ Strays rest

theorem isAttribute_field {f : PropsField} (hf : IsField f) (o : Layout) :
    IsAttribute (f.written o) := by
  obtain ⟨htrim, hone⟩ := PropsField.trimmed_written hf o
  obtain ⟨rest, hrest, hstray⟩ := strays_field f o
  exact ⟨htrim, hone, f.name, rest, hrest, hf.name, hstray⟩

theorem isAttribute_alias {a : ClassAlias} (ha : IsAlias a) : IsAttribute a.written := by
  obtain ⟨htrim, hone⟩ := ClassAlias.trimmed_written ha
  obtain ⟨rest, hrest, hstray⟩ := strays_alias a
  exact ⟨htrim, hone, a.name, rest, hrest, ha.name, hstray⟩

/-- Without a report, only lines two spaces in follow the line that opens a block. -/
theorem Heading.two_or_nil {ws : List Text} (h : s.Heading) (hs : s.Sound fun _ => True)
    (hl : ∀ l ∈ ls, Unbroken l.text) (hws : ∀ w ∈ ws, IsAttribute w)
    (hls : ls.map Line.text = ws.map (indentation o.indentSize 1 ++ ·))
    (ho : o.indentSize = 2 ∨ (ls.foldl step s).diagnostics = []) :
    o.indentSize = 2 ∨ ws = [] := by
  by_cases htwo : o.indentSize = 2
  · exact Or.inl htwo
  · cases ws with
    | nil => exact Or.inr rfl
    | cons w ws =>
      exfalso
      obtain ⟨l, ls', rfl, hlw, -⟩ := exists_cons_of_map hls
      obtain ⟨htrim, hone, name, rest, rfl, hn, hstray⟩ := hws w List.mem_cons_self
      have hstep := transition_step hs.leveled (hl l List.mem_cons_self) (yields_true _)
      exact h.ne_nil_of_stray hs htwo hn hstray htrim hone hlw
        (nil_of_run (hstep.leveled hs.leveled) (fun k hk => hl k (List.mem_cons_of_mem l hk))
          (ho.resolve_left htwo))

theorem map_two_or_nil {ws : List Text} (h : o.indentSize = 2 ∨ ws = [])
    (hls : ls.map Line.text = ws.map (indentation o.indentSize 1 ++ ·)) :
    ls.map Line.text = ws.map (indentation 2 1 ++ ·) := by
  rcases h with htwo | rfl
  · rwa [htwo] at hls
  · exact hls

/-! ## Sections -/

/-- The section of the id is read as it was. -/
theorem Heading.read_idSection (h : s.Heading) (hu : u.HeaderStands)
    (hraw : s.template.rawId = none) (hid : s.template.id = none)
    (hls : ls.map Line.text =
      ((u.writtenId?.map fun id => [['#', 'i', 'd', ' '] ++ id]).toList).flatten) :
    ∃ span, (ls.foldl step s).Heading ∧ (ls.foldl step s).template =
      { s.template with rawId := u.rawId, id := u.id, idSpan := span } := by
  rw [hu.writtenId?_eq] at hls
  rcases hu.id with ⟨huraw, huid⟩ | ⟨v, huraw, hv, huid⟩
  · have hnil : ls = [] := by simpa [huraw] using hls
    subst hnil
    refine ⟨s.template.idSpan, h, ?_⟩
    obtain ⟨⟨id, rawId, idSpan, props, aliases, children, span⟩, frames, chains, pl, cl, ds⟩ := s
    obtain rfl : rawId = none := hraw
    obtain rfl : id = none := hid
    rw [huraw, huid]
    rfl
  · have hone : ls.map Line.text = [['#', 'i', 'd', ' '] ++ v] := by
      rw [hls]
      simp [huraw]
    obtain ⟨l, ls', rfl, hl, hls'⟩ := exists_cons_of_map hone
    obtain rfl := List.map_eq_nil_iff.mp hls'
    obtain ⟨span, hheading, htemplate⟩ := h.read_id hv hraw hl
    refine ⟨some span, hheading, htemplate.trans ?_⟩
    rw [huraw, huid]
    rfl

/-- The section of the props block is read as it was, or there is a report. -/
theorem Heading.read_propsSection (h : s.Heading) (hs : s.Sound fun _ => True)
    (hu : u.HeaderStands) (hprops : s.template.props = none) (hl : ∀ l ∈ ls, Unbroken l.text)
    (hls : ls.map Line.text = ((u.props.map (PropsBlock.lines o)).toList).flatten)
    (ho : o.indentSize = 2 ∨ (ls.foldl step s).diagnostics = []) :
    ∃ p, p.map PropsBlock.bare = u.props.map PropsBlock.bare ∧ (ls.foldl step s).Heading ∧
      (ls.foldl step s).template = { s.template with props := p } ∧
      (o.indentSize = 2 ∨ ∀ p ∈ u.props, p.fields = []) := by
  cases hp : u.props with
  | none =>
    have hnil : ls = [] := by simpa [hp] using hls
    subst hnil
    refine ⟨none, rfl, h, ?_, Or.inr (by simp)⟩
    rw [← hprops]
    rfl
  | some p =>
    have hmap : ls.map Line.text = ['p', 'r', 'o', 'p', 's'] ::
        (p.fields.map (·.written o)).map (indentation o.indentSize 1 ++ ·) := by
      rw [hls, hp, Option.map_some, PropsBlock.lines_eq, List.map_map]
      simp [Function.comp_def]
    obtain ⟨l, ls', rfl, hlp, hls'⟩ := exists_cons_of_map hmap
    obtain ⟨span, hin⟩ := h.read_props hprops hlp
    have hfields : ∀ w ∈ p.fields.map (·.written o), IsAttribute w := by
      intro w hw
      obtain ⟨f, hf, rfl⟩ := List.mem_map.mp hw
      exact isAttribute_field (hu.fields p hp f hf) o
    have htwo := hin.heading.two_or_nil
      (sound_step hs (hl l List.mem_cons_self) (yields_true _))
      (fun k hk => hl k (List.mem_cons_of_mem l hk)) hfields hls' ho
    have hls'' := map_two_or_nil htwo hls'
    rw [List.map_map] at hls''
    rw [List.map_eq_nil_iff] at htwo
    obtain ⟨fields, hmap', hin'⟩ :=
      exists_attributes (fun h hf hl => InProps.step h hf hl) (hu.fields p hp) hin hls''
    refine ⟨some ⟨fields, span⟩, ?_, hin'.heading, hin'.template, htwo.imp_right fun hnil => ?_⟩
    · simp [PropsBlock.bare, hmap']
    · simpa using hnil

/-- The section of the classes block is read as it was, or there is a report. -/
theorem Heading.read_classesSection (h : s.Heading) (hs : s.Sound fun _ => True)
    (hu : u.HeaderStands) (haliases : s.template.aliases = none) (hl : ∀ l ∈ ls, Unbroken l.text)
    (hls : ls.map Line.text = ((u.aliases.map (AliasBlock.lines o)).toList).flatten)
    (ho : o.indentSize = 2 ∨ (ls.foldl step s).diagnostics = []) :
    ∃ b, b.map AliasBlock.bare = u.aliases.map AliasBlock.bare ∧ (ls.foldl step s).Heading ∧
      (ls.foldl step s).template = { s.template with aliases := b } ∧
      (o.indentSize = 2 ∨ ∀ b ∈ u.aliases, b.aliases = []) := by
  cases hb : u.aliases with
  | none =>
    have hnil : ls = [] := by simpa [hb] using hls
    subst hnil
    refine ⟨none, rfl, h, ?_, Or.inr (by simp)⟩
    rw [← haliases]
    rfl
  | some b =>
    have hmap : ls.map Line.text = ['c', 'l', 'a', 's', 's', 'e', 's'] ::
        (b.aliases.map ClassAlias.written).map (indentation o.indentSize 1 ++ ·) := by
      rw [hls, hb, Option.map_some, AliasBlock.lines_eq, List.map_map]
      simp [Function.comp_def]
    obtain ⟨l, ls', rfl, hlb, hls'⟩ := exists_cons_of_map hmap
    obtain ⟨span, hin⟩ := h.read_classes haliases hlb
    have hattributes : ∀ w ∈ b.aliases.map ClassAlias.written, IsAttribute w := by
      intro w hw
      obtain ⟨a, ha, rfl⟩ := List.mem_map.mp hw
      exact isAttribute_alias (hu.aliases b hb a ha)
    have htwo := hin.heading.two_or_nil
      (sound_step hs (hl l List.mem_cons_self) (yields_true _))
      (fun k hk => hl k (List.mem_cons_of_mem l hk)) hattributes hls' ho
    have hls'' := map_two_or_nil htwo hls'
    rw [List.map_map] at hls''
    rw [List.map_eq_nil_iff] at htwo
    obtain ⟨aliases, hmap', hin'⟩ :=
      exists_attributes (fun h ha hl => InClasses.step h ha hl) (hu.aliases b hb) hin hls''
    refine ⟨some ⟨aliases, span⟩, ?_, hin'.heading, hin'.template, htwo.imp_right fun hnil => ?_⟩
    · simp [AliasBlock.bare, hmap']
    · simpa using hnil

/-- The lines of the header give the header back, if a level is two spaces or nothing is
reported; the latter only if no line of it has a margin. -/
theorem read_header (hu : u.HeaderStands) (span : Option Span) (hl : ∀ l ∈ ls, Unbroken l.text)
    (hls : ls.map Line.text = (u.header.sections o).flatten)
    (ho : o.indentSize = 2 ∨ (ls.foldl step (start span)).diagnostics = []) :
    (ls.foldl step (start span)).Heading ∧
      (ls.foldl step (start span)).template.header.bare = u.header.bare ∧
      (o.indentSize = 2 ∨ u.HeaderFlush) := by
  rw [Template.sections_header, List.flatten_append, List.flatten_append] at hls
  obtain ⟨top, ls₃, rfl, htop, h₃⟩ := List.map_eq_append_iff.mp hls
  obtain ⟨ls₁, ls₂, rfl, h₁, h₂⟩ := List.map_eq_append_iff.mp htop
  have hl₁ : ∀ l ∈ ls₁, Unbroken l.text := fun l h => hl l (by simp [h])
  have hl₂ : ∀ l ∈ ls₂, Unbroken l.text := fun l h => hl l (by simp [h])
  have hl₃ : ∀ l ∈ ls₃, Unbroken l.text := fun l h => hl l (by simp [h])
  rw [List.foldl_append, List.foldl_append] at ho ⊢
  have hs₁ := sound_run (sound_start (P := fun _ => True) span) hl₁ (yields_true _)
  have hs₂ := sound_run hs₁ hl₂ (yields_true _)
  obtain ⟨idSpan, hheading, hid⟩ := (heading_start span).read_idSection hu rfl rfl h₁
  obtain ⟨p, hp, hheading₂, hprops, hfields⟩ :=
    hheading.read_propsSection hs₁ hu (by rw [hid]; rfl) hl₂ h₂
      (ho.imp_right (nil_of_run hs₂.leveled hl₃))
  obtain ⟨b, hb, hheading₃, haliases, hnone⟩ :=
    hheading₂.read_classesSection hs₂ hu (by rw [hprops, hid]; rfl) hl₃ h₃ ho
  refine ⟨hheading₃, ?_, ?_⟩
  · rw [haliases, hprops, hid]
    simp [Template.bare, Template.header, hp, hb, start]
  · rcases hfields with htwo | hfields
    · exact Or.inl htwo
    · exact hnone.imp_right fun hnone => ⟨hfields, hnone⟩

/-- The lines of all sections give the template back, and nothing is reported. -/
theorem read_sections (hu : u.HeaderStands) (hc : ∀ n ∈ u.children, n.Stands Pipe.Readable)
    (ho : o.indentSize = 2) (span : Option Span) (hl : ∀ l ∈ ls, Unbroken l.text)
    (hls : ls.map Line.text = (u.sections o).flatten) :
    (ls.foldl step (start span)).template.bare = u.bare ∧
      (ls.foldl step (start span)).diagnostics = [] := by
  rw [Template.flatten_sections] at hls
  obtain ⟨ls₁, ls₂, rfl, h₁, h₂⟩ := List.map_eq_append_iff.mp hls
  obtain ⟨hheading, hbare, -⟩ :=
    read_header hu span (fun l h => hl l (List.mem_append_left _ h)) h₁ (Or.inl ho)
  obtain ⟨ns, hns, hreads⟩ := reads_nodes ho u.children hc _ 0 hheading.ready ls₂ h₂
  rw [List.foldl_append]
  refine ⟨?_, hreads.diagnostics.trans hheading.diagnostics⟩
  rw [hreads.template, Template.bare_eq_iff]
  refine ⟨hbare, ?_⟩
  simp [Outline.modifyAt, hheading.children, hns]

end Outliner

end Offside
