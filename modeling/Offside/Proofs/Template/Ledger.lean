import Mathlib.Data.List.Nodup
import Offside.Proofs.Template.Reports
import Offside.Proofs.Template.Slots

/-!
The account of branches and loops is true of the tree. Between two lines it lists the slots of the
tree, and it knows which of them the list at each open level fills. At the end the reports about
empty bodies are those that the tree asks for.
-/
namespace Offside

open Text Node

variable {P : List Part → Prop} {s t : Outliner} {g : Ledger} {m : Mark} {line : Text}
  {level : Nat} {e : Entry} {opens : Bool} {l : Line} {ds : List Diagnostic}

/-! ## Entries -/

theorem Branch.Stands.slotsIn_body {b : Branch Node} (h : b.Stands P opens) :
    slotsIn b.body = [] := by
  rcases h.body with hnil | ⟨-, hbody⟩
  · rw [hnil, slotsIn_nil]
  · exact slotsIn_of_inlined hbody

/-- A line opens at most one branch or loop, and its span starts on the line. -/
theorem Entry.Reading.slots_span (h : Entry.Reading P m line e opens ds) :
    e.slots = [] ∨ ∃ isLoop filled, ∃ span : Span, e.slots = [⟨isLoop, some span, filled⟩] ∧
      span.start.line = m.line := by
  have hspan : ∀ {span : Option Span}, lineOf span = some (m.line : Int) →
      ∃ span' : Span, span = some span' ∧ span'.start.line = m.line := by
    intro span hline
    obtain ⟨span', rfl, hstart⟩ := Option.map_eq_some_iff.mp hline
    exact ⟨span', rfl, hstart⟩
  have hbranch : ∀ {b : Branch Node}, b.Stands P opens → lineOf b.span = some (m.line : Int) →
      ∃ isLoop filled, ∃ span : Span, slotsAt b = [⟨isLoop, some span, filled⟩] ∧
        span.start.line = m.line := by
    rintro ⟨test, body, span⟩ hb hline
    obtain ⟨span, rfl, hstart⟩ := hspan hline
    exact ⟨false, _, span, by rw [slotsAt, hb.slotsIn_body], hstart⟩
  obtain ⟨r, rs, hrows, -, -, hline, -⟩ := h.rows 0
  have hs := h.stands
  cases hs with
  | element _ => exact Or.inl (by simp [Entry.slots, Node.slots])
  | led _ _ _ => exact Or.inl (by simp [Entry.slots, Node.slots])
  | text _ => exact Or.inl (by simp [Entry.slots, Node.slots])
  | expression _ => exact Or.inl (by simp [Entry.slots, Node.slots])
  | loop _ =>
    obtain ⟨rfl, -⟩ := List.cons.inj hrows
    obtain ⟨span, rfl, hstart⟩ := hspan hline
    exact Or.inr ⟨true, false, span, by simp [Entry.slots, Node.slots], hstart⟩
  | @conditional b _ span' hb _ =>
    have hb' : (Entry.node (.conditional [b] span')).slots = slotsAt b := by
      simp [Entry.slots, Node.slots]
    rw [Entry.rows, rows_conditional] at hrows
    obtain ⟨test, body, span⟩ := b
    obtain ⟨rfl, -⟩ := List.cons.inj hrows
    exact Or.inr (hb' ▸ hbranch hb hline)
  | @branch b _ hb =>
    obtain ⟨test, body, span⟩ := b
    obtain ⟨rfl, -⟩ := List.cons.inj hrows
    exact Or.inr (hbranch hb hline)

namespace Ledger

/-- The account behind a line that adds an entry at a level. -/
def enter (g : Ledger) (level : Nat) (e : Entry) (opens : Bool) : Ledger :=
  let before := if e.isBranch then g else g.fill
  let after : Ledger := { before with slots := before.slots ++ e.slots }
  if opens then after.push level (if e.slots.isEmpty then none else some before.slots.length)
  else after

theorem frames_fill (g : Ledger) : g.fill.frames = g.frames := by
  rw [fill]
  split <;> rfl

/-- The account with the slot filled that an entry goes into. A branch goes into no new one. -/
def join (g : Ledger) (e : Entry) : Ledger := if e.isBranch then g else g.fill

theorem enter_eq (g : Ledger) (level : Nat) (e : Entry) (opens : Bool) : g.enter level e opens =
    ⟨(g.join e).slots ++ e.slots,
      if opens then
        (level, if e.slots.isEmpty then none else some (g.join e).slots.length) :: g.frames
      else g.frames⟩ := by
  have hframes : (g.join e).frames = g.frames := by
    rw [join]
    split
    · rfl
    · exact frames_fill g
  rw [← hframes]
  cases opens <;> rfl

theorem add_eq {q : Slot} (hq : e.slots = [q]) :
    (if e.isBranch then g else g.fill).add q level opens = g.enter level e opens := by
  rw [add, enter, hq]
  rfl

theorem openBranch_eq {head : BranchHead} {b : Branch Node}
    (hb : Outliner.branchOf head = (b, ds)) (hslots : e.slots = slotsAt b)
    (hstands : b.Stands P opens) :
    (if e.isBranch then g else g.fill).openBranch head level =
      g.enter level e head.inline.isNone := by
  have hspan : b.span = some head.span := by
    rw [Outliner.branchOf] at hb
    split at hb <;> (obtain ⟨rfl, -⟩ := Prod.mk.inj hb; rfl)
  obtain ⟨test, body, span⟩ := b
  obtain rfl : span = some head.span := hspan
  rw [openBranch, hb]
  exact add_eq (by rw [hslots, slotsAt, hstands.slotsIn_body])

theorem readKind_if : g.readKind s m level line .ifLine =
    match BranchHead.readTested .ifLine m line with
    | .error _ => g
    | .ok head => g.fill.openBranch head level := rfl

theorem readKind_elseIf : g.readKind s m level line .elseIf =
    match s.chainAt? level with
    | none => g
    | some chain =>
      if chain.hasElse then g
      else match BranchHead.readTested .elseIf m line with
        | .error _ => g
        | .ok head => g.openBranch head level := rfl

theorem readKind_else : g.readKind s m level line .elseLine =
    match s.chainAt? level with
    | none => g
    | some chain =>
      if chain.hasElse then g else g.openBranch (BranchHead.readElse m line) level := rfl

theorem readKind_for : g.readKind s m level line .forLine =
    match Loop.read? line with
    | none => g
    | some _ => g.fill.add ⟨true, some (m.span line.length), false⟩ level true := rfl

theorem readKind_pipe : g.readKind s m level line .pipe = g.fill := rfl

theorem readKind_expression : g.readKind s m level line .expression =
    match Node.readExpression m line with
    | .error _ => g
    | .ok _ => g.fill := rfl

theorem readKind_element : g.readKind s m level line .element =
    match Node.readElement m line with
    | .error _ => g
    | .ok _ => g.fill.push level none := rfl

/-- What a line does to the tree and to the account: nothing, or it adds an entry to both. -/
def Accounts (s t : Outliner) (g g' : Ledger) (m : Mark) (line : Text) (level : Nat) : Prop :=
  (t.template.children = s.template.children ∧ t.frames = s.frames ∧ g' = g) ∨
    ∃ e opens ds, Entry.Reading (fun _ => True) m line e opens ds ∧
      (e.isBranch = true → ∃ c ∈ s.chains, c.level = level) ∧
      t = (s.enter level e opens).note ds ∧ g' = g.enter level e opens

variable {rest : Text}

/-- An `@if` line is accounted for. -/
theorem accounts_ifLine (hlen : s.frames.length = level) (hl : OneLine rest) :
    Accounts s (s.readIf m level (TestKeyword.ifLine.word ++ rest)) g
      (g.readKind s m level (TestKeyword.ifLine.word ++ rest) .ifLine) m
      (TestKeyword.ifLine.word ++ rest) level := by
  cases h : BranchHead.readTested .ifLine m (TestKeyword.ifLine.word ++ rest) with
  | error d =>
    simp only [Outliner.readIf, readKind_if, h]
    exact Or.inl ⟨rfl, rfl, rfl⟩
  | ok head =>
    obtain ⟨⟨b, ds⟩, hb⟩ : ∃ r, Outliner.branchOf head = r := ⟨_, rfl⟩
    have hread := Node.reading_if h hb hl (Outliner.yields_true ds)
    rw [Outliner.readIf_of_ok h hb hlen]
    simp only [readKind_if, h]
    refine Or.inr ⟨_, _, ds, hread, by simp [Entry.isBranch], rfl, ?_⟩
    cases hread.stands with
    | conditional hstands _ =>
      have hslots : (Entry.node (.conditional [b] (some head.span))).slots = slotsAt b := by
        simp [Entry.slots, Node.slots]
      exact openBranch_eq hb hslots hstands

/-- An `@elseIf` line is accounted for. -/
theorem accounts_elseIf (hlen : s.frames.length = level) (hl : OneLine rest) :
    Accounts s (s.readElseIf m level (TestKeyword.elseIf.word ++ rest)) g
      (g.readKind s m level (TestKeyword.elseIf.word ++ rest) .elseIf) m
      (TestKeyword.elseIf.word ++ rest) level := by
  cases hchain : s.chainAt? level with
  | none =>
    simp only [Outliner.readElseIf, readKind_elseIf, hchain]
    exact Or.inl ⟨rfl, rfl, rfl⟩
  | some chain =>
    obtain ⟨hmem, hlevel⟩ := Outliner.exists_of_chainAt? hchain
    cases helse : chain.hasElse with
    | true =>
      simp only [Outliner.readElseIf, readKind_elseIf, hchain, helse, if_true]
      exact Or.inl ⟨rfl, rfl, rfl⟩
    | false =>
      cases h : BranchHead.readTested .elseIf m (TestKeyword.elseIf.word ++ rest) with
      | error d =>
        simp only [Outliner.readElseIf, readKind_elseIf, hchain, helse, h]
        exact Or.inl ⟨rfl, rfl, rfl⟩
      | ok head =>
        obtain ⟨⟨b, ds⟩, hb⟩ : ∃ r, Outliner.branchOf head = r := ⟨_, rfl⟩
        obtain ⟨htest, hread⟩ := Node.reading_elseIf h hb hl (Outliner.yields_true ds)
        rw [Outliner.readElseIf_of_ok hchain helse h hb hlen htest]
        simp only [readKind_elseIf, hchain, helse, h]
        refine Or.inr ⟨_, _, ds, hread, fun _ => ⟨chain, hmem, hlevel⟩, rfl, ?_⟩
        cases hread.stands with
        | branch hstands => exact openBranch_eq (e := .branch b) hb rfl hstands

/-- An `@else` line is accounted for. -/
theorem accounts_elseLine (hlen : s.frames.length = level) (hl : OneLine rest) :
    Accounts s (s.readElse m level (['@', 'e', 'l', 's', 'e'] ++ rest)) g
      (g.readKind s m level (['@', 'e', 'l', 's', 'e'] ++ rest) .elseLine) m
      (['@', 'e', 'l', 's', 'e'] ++ rest) level := by
  cases hchain : s.chainAt? level with
  | none =>
    simp only [Outliner.readElse, readKind_else, hchain]
    exact Or.inl ⟨rfl, rfl, rfl⟩
  | some chain =>
    obtain ⟨hmem, hlevel⟩ := Outliner.exists_of_chainAt? hchain
    cases helse : chain.hasElse with
    | true =>
      simp only [Outliner.readElse, readKind_else, hchain, helse, if_true]
      exact Or.inl ⟨rfl, rfl, rfl⟩
    | false =>
      obtain ⟨⟨b, ds⟩, hb⟩ : ∃ r, Outliner.branchOf
        (BranchHead.readElse m (['@', 'e', 'l', 's', 'e'] ++ rest)) = r := ⟨_, rfl⟩
      obtain ⟨htest, hread⟩ := Node.reading_else hb hl (Outliner.yields_true ds)
      rw [Outliner.readElse_of_some hchain helse hb hlen htest]
      simp only [readKind_else, hchain, helse]
      refine Or.inr ⟨_, _, ds, hread, fun _ => ⟨chain, hmem, hlevel⟩, rfl, ?_⟩
      cases hread.stands with
      | branch hstands => exact openBranch_eq (e := .branch b) hb rfl hstands

/-- An `@for` line is accounted for. -/
theorem accounts_forLine (hlen : s.frames.length = level) (hl : OneLine rest) :
    Accounts s (s.readLoop m level (['@', 'f', 'o', 'r'] ++ rest)) g
      (g.readKind s m level (['@', 'f', 'o', 'r'] ++ rest) .forLine) m
      (['@', 'f', 'o', 'r'] ++ rest) level := by
  cases h : Loop.read? (['@', 'f', 'o', 'r'] ++ rest) with
  | none =>
    simp only [Outliner.readLoop, readKind_for, h]
    exact Or.inl ⟨rfl, rfl, rfl⟩
  | some names =>
    obtain ⟨v, i⟩ := names
    have hread := Node.reading_loop (P := fun _ => True) h hl
      (m.span (['@', 'f', 'o', 'r'] ++ rest).length) (m.span_start_line _)
    rw [Outliner.readLoop_of_some h hlen]
    simp only [readKind_for, h]
    refine Or.inr ⟨_, _, [], hread, by simp [Entry.isBranch], (Outliner.note_nil _).symm, ?_⟩
    exact add_eq (e := .node _) (by simp [Entry.slots, Node.slots])

/-- A node without a slot of its own is put into the innermost open line. -/
theorem fill_eq {n : Node} (hn : n.slots = []) : g.fill = g.enter level (.node n) false := by
  have hslots : (Entry.node n).slots = [] := hn
  simp [enter, Entry.isBranch, hslots]

theorem fill_push_eq {n : Node} (hn : n.slots = []) :
    g.fill.push level none = g.enter level (.node n) true := by
  have hslots : (Entry.node n).slots = [] := hn
  simp [enter, Entry.isBranch, hslots]

theorem accounts_pipe (hlen : s.frames.length = level) (hs : EndsSolid rest) (hl : OneLine rest) :
    Accounts s (s.readKind m level ('|' :: rest) .pipe) g
      (g.readKind s m level ('|' :: rest) .pipe) m ('|' :: rest) level := by
  obtain ⟨ps, ds, hr, -⟩ := Pipe.read_pipe m .block hs hl
  have hread := Node.reading_text hr hs hl (Outliner.yields_true ds)
  simp only [Outliner.readKind, readKind_pipe, hr]
  rw [Outliner.add_text hlen]
  refine Or.inr ⟨_, _, ds, hread, by simp [Entry.isBranch], rfl, fill_eq ?_⟩
  simp [Node.slots]

/-- An expression line is accounted for. -/
theorem accounts_expression (hlen : s.frames.length = level) (hl : OneLine rest) :
    Accounts s (s.readKind m level ('{' :: '{' :: rest) .expression) g
      (g.readKind s m level ('{' :: '{' :: rest) .expression) m ('{' :: '{' :: rest) level := by
  cases h : Node.readExpression m ('{' :: '{' :: rest) with
  | error d =>
    simp only [Outliner.readKind, readKind_expression, h]
    exact Or.inl ⟨rfl, rfl, rfl⟩
  | ok n =>
    have hread := Node.reading_expression (P := fun _ => True) h hl
    obtain ⟨v, span, rfl, -⟩ := Node.readExpression_ok h hl
    simp only [Outliner.readKind, readKind_expression, h]
    rw [Outliner.add_expression hlen]
    refine Or.inr ⟨_, _, [], hread, by simp [Entry.isBranch], (Outliner.note_nil _).symm,
      fill_eq ?_⟩
    simp [Node.slots]

/-- An element line is accounted for. -/
theorem accounts_element (hk : LineKind.element.Heads line) (hlen : s.frames.length = level)
    (hs : EndsSolid line) (hl : OneLine line) :
    Accounts s (s.readKind m level line .element) g (g.readKind s m level line .element) m line
      level := by
  cases h : Node.readElement m line with
  | error d =>
    simp only [Outliner.readKind, readKind_element, h]
    exact Or.inl ⟨rfl, rfl, rfl⟩
  | ok r =>
    obtain ⟨n, ds⟩ := r
    have hread := Node.reading_element hk h hs hl (Outliner.yields_true ds)
    simp only [Outliner.readKind, readKind_element, h]
    refine Or.inr ⟨_, _, ds, hread, by simp [Entry.isBranch], ?_, fill_push_eq ?_⟩
    · cases Node.readElement_ok h hs hl (Outliner.yields_true ds) <;>
        exact congrArg (Outliner.note · _) (Outliner.push_add_element hlen)
    · cases Node.readElement_ok h hs hl (Outliner.yields_true ds) <;> simp [Node.slots]

/-- What a line outside the header comes to. -/
theorem accounts_readKind {kind : LineKind} (hk : kind.Heads line)
    (hlen : s.frames.length = level) (hs : EndsSolid line) (hl : OneLine line) :
    Accounts s (s.readKind m level line kind) g (g.readKind s m level line kind) m line level := by
  cases kind with
  | id =>
    obtain ⟨rest, rfl⟩ := hk
    rcases s.readId_cases m level rest with ⟨ds, -, -, h⟩ | ⟨-, -, v, span, -, -, -, h⟩ <;>
      exact Or.inl ⟨by rw [Outliner.readKind, h]; rfl, by rw [Outliner.readKind, h]; rfl, rfl⟩
  | props =>
    rcases s.openProps_cases m level line with ⟨ds, -, -, h⟩ | ⟨-, -, -, span, -, h⟩ <;>
      exact Or.inl ⟨by rw [Outliner.readKind, h]; rfl, by rw [Outliner.readKind, h]; rfl, rfl⟩
  | classes =>
    rcases s.openClasses_cases m level line with ⟨ds, -, -, h⟩ | ⟨-, -, -, span, -, h⟩ <;>
      exact Or.inl ⟨by rw [Outliner.readKind, h]; rfl, by rw [Outliner.readKind, h]; rfl, rfl⟩
  | ifLine =>
    obtain ⟨rest, rfl⟩ := hk
    exact accounts_ifLine hlen (hl.subset fun c => List.mem_append_right _)
  | elseIf =>
    obtain ⟨rest, rfl⟩ := hk
    exact accounts_elseIf hlen (hl.subset fun c => List.mem_append_right _)
  | elseLine =>
    obtain ⟨rest, rfl⟩ := hk
    exact accounts_elseLine hlen (hl.subset fun c => List.mem_append_right _)
  | forLine =>
    obtain ⟨rest, rfl⟩ := hk
    exact accounts_forLine hlen (hl.subset fun c => List.mem_append_right _)
  | pipe =>
    obtain ⟨rest, rfl⟩ := hk
    exact accounts_pipe hlen hs.tail (hl.subset fun c => List.mem_cons_of_mem _)
  | expression =>
    obtain ⟨rest, rfl⟩ := hk
    exact accounts_expression hlen
      (hl.subset fun c hc => List.mem_cons_of_mem _ (List.mem_cons_of_mem _ hc))
  | element => exact accounts_element hk hlen hs hl

/-! ## One line -/

/-- What holds between two lines: the account lists the slots of the tree, and the list at each
open level fills the slot that the account says. -/
structure Tracks (s : Outliner) (g : Ledger) : Prop where
  levels : g.frames.map Prod.fst = s.frames
  slots : g.slots = slotsIn s.template.children
  fills : ∀ p ∈ g.frames, ∃ front holder body,
    Outline.Fills s.template.children (p.1 + 1) p.2 front holder body

/-- What is open and the tree are all that the account is about. -/
theorem Tracks.of_eq (h : Tracks s g) (hchildren : t.template.children = s.template.children)
    (hframes : t.frames = s.frames) : Tracks t g :=
  ⟨hframes ▸ h.levels, hchildren ▸ h.slots, hchildren ▸ h.fills⟩

theorem Tracks.settle (h : Tracks s g) (level : Nat) (kind : LineKind) :
    Tracks (s.settle level kind) (g.settle level) where
  levels := by
    rw [Outliner.settle, Ledger.settle, ← h.levels, List.dropWhile_map]
    rfl
  slots := h.slots
  fills p hp := h.fills p ((List.dropWhile_sublist _).subset hp)

/-- The slot on top is the one that the list at the open edge fills. -/
theorem Tracks.top (h : Tracks s g) (hframes : s.frames = down level) : ∃ front holder body,
    Outline.Fills s.template.children level g.top? front holder body := by
  have hlevels := h.levels
  rw [hframes] at hlevels
  cases level with
  | zero =>
    have hnil : g.frames = [] := List.map_eq_nil_iff.mp hlevels
    rw [top?, hnil]
    exact ⟨[], none, _, Outline.fills_zero _⟩
  | succ level =>
    rw [down_succ] at hlevels
    obtain ⟨⟨k, place⟩, rest, hcons, rfl, -⟩ := List.map_eq_cons_iff.mp hlevels
    rw [top?, hcons]
    exact h.fills (k, place) (by simp [hcons])

/-- Filling the innermost line changes the slot that its list fills, and no other. -/
theorem slots_fill {ns ms body : List Node} {front : List Slot}
    {holder : Option (Bool × Option Span)} (hslots : g.slots = slotsIn ns)
    (h : Outline.Fills ns level g.top? front holder body) (hms : ms ≠ []) :
    g.fill.slots = front ++ slotOf holder ms ++ slotsIn body := by
  rw [h.slotsIn_eq] at hslots
  have hplace := h.place
  cases holder with
  | none =>
    rw [fill, hplace]
    exact hslots
  | some owner =>
    obtain ⟨isLoop, span⟩ := owner
    have hfull : ms.isEmpty = false := List.isEmpty_eq_false_iff.mpr hms
    rw [fill, hplace]
    simp [hslots, slotOf, hfull, List.modify_eq_take_drop]

/-- A node that joins the list at the open edge fills its slot and brings its own. -/
theorem slots_join {ns body : List Node} {front : List Slot}
    {holder : Option (Bool × Option Span)} (hslots : g.slots = slotsIn ns)
    (h : Outline.Fills ns level g.top? front holder body) (hjoins : e.Joins body) :
    (g.join e).slots = front ++ slotOf holder (e.into body) ++ slotsIn body := by
  have hne := Entry.into_ne_nil hjoins
  cases hbranch : e.isBranch with
  | false =>
    rw [join, if_neg (by simp [hbranch])]
    exact slots_fill hslots h hne
  | true =>
    -- the conditional that takes the branch is there already
    obtain ⟨rest, branches, span, hbody⟩ := hjoins hbranch
    have hne' : body ≠ [] := by simp [hbody]
    rw [join, if_pos hbranch, hslots, h.slotsIn_eq, slotOf_eq hne' hne]

/-- The account goes on as the tree does when a line adds an entry. -/
theorem Tracks.enter (h : Tracks s g) (hframes : s.frames = down level) (he : e.Stands P opens)
    (hjoins : ∀ body, Outline.listAt? level s.template.children = some body → e.Joins body) :
    Tracks (s.enter level e opens) (g.enter level e opens) ∧
      (g.enter level e opens).slots.map Slot.span =
        g.slots.map Slot.span ++ e.slots.map Slot.span := by
  obtain ⟨front, holder, body, hfills⟩ := h.top hframes
  have hjoin := hjoins body hfills.list
  have hslots := slots_join h.slots hfills hjoin
  have hold : ∀ p ∈ g.frames, ∃ front holder body, Outline.Fills
      (Outline.modifyAt e.into level s.template.children) (p.1 + 1) p.2 front holder body := by
    intro p hp
    obtain ⟨front, holder, body, hp'⟩ := h.fills p hp
    have hlevel : p.1 ∈ down level := by
      rw [← hframes, ← h.levels]
      exact List.mem_map_of_mem hp
    have hlt : p.1 < level := by simpa [down] using hlevel
    exact ⟨_, _, _, hp'.modifyAt hlt _⟩
  rw [enter_eq]
  refine ⟨⟨?_, ?_, ?_⟩, ?_⟩
  · rw [Outliner.enter, ← h.levels]
    cases opens <;> rfl
  · rw [Outliner.enter, hfills.slots, Entry.slotsIn_into hjoin, hslots]
    simp only [List.append_assoc]
  · intro p hp
    cases opens with
    | false => exact hold p hp
    | true =>
      rcases List.mem_cons.mp hp with rfl | hp
      · obtain ⟨holder', inner, hinner⟩ := hfills.enter he hjoin
        rw [← hslots] at hinner
        exact ⟨_, holder', inner, hinner⟩
      · exact hold p hp
  · rw [List.map_append, hslots, h.slots, hfills.slotsIn_eq]
    cases holder <;> simp [slotOf]

/-- A line adds at most one slot, behind all others, and its span starts on the line. -/
def Grows (l : Line) (g g' : Ledger) : Prop :=
  g'.slots.map Slot.span = g.slots.map Slot.span ∨ ∃ span : Span,
    g'.slots.map Slot.span = g.slots.map Slot.span ++ [some span] ∧ span.start.line = l.number

/-- A line that is accounted for keeps the account in step. -/
theorem Tracks.accounts {g' : Ledger} (h : Tracks s g) (hs : s.Sound P)
    (hframes : s.frames = down level) (ha : Accounts s t g g' m line level)
    (hm : m.line = l.number) : Tracks t g' ∧ Grows l g g' := by
  rcases ha with ⟨hchildren, hframes', rfl⟩ | ⟨e, opens, ds, hread, hbranch, rfl, rfl⟩
  · exact ⟨h.of_eq hchildren hframes', Or.inl rfl⟩
  · have hjoins : ∀ body, Outline.listAt? level s.template.children = some body → e.Joins body := by
      intro body hbody he
      obtain ⟨c, hc, rfl⟩ := hbranch he
      obtain ⟨body', hbody', rest, branches, span, hends, -⟩ := hs.chains c hc
      obtain rfl := Option.some.inj (hbody'.symm.trans hbody)
      exact ⟨rest, branches, span, hends⟩
    obtain ⟨htracks, hspans⟩ := h.enter hframes hread.stands hjoins
    refine ⟨htracks.of_eq rfl rfl, ?_⟩
    rcases hread.slots_span with hnil | ⟨isLoop, filled, span, hone, hline⟩
    · exact Or.inl (by rw [hspans, hnil, List.map_nil, List.append_nil])
    · exact Or.inr ⟨span, by rw [hspans, hone]; rfl, by rw [hline, hm]⟩

theorem readKind_note (g : Ledger) (s : Outliner) (ds : List Diagnostic) (m : Mark) (level : Nat)
    (line : Text) (kind : LineKind) :
    g.readKind (s.note ds) m level line kind = g.readKind s m level line kind := by
  cases kind <;> rfl

/-- A line outside the header blocks keeps the account in step. -/
theorem Tracks.readBody (h : Tracks s g) (hs : s.Sound P) (hm : m.line = l.number)
    (hline : EndsSolid line) (hl : OneLine line) (level : Nat) :
    Tracks (s.readBody m level line) (g.readBody s m level line) ∧
      Grows l g (g.readBody s m level line) := by
  obtain ⟨kind, hkind⟩ : ∃ kind, LineKind.ofText line = kind := ⟨_, rfl⟩
  have hnext := Outliner.nextLevel_eq hs.leveled
  obtain ⟨hnarrows, hframes, -⟩ := hs.leveled.narrows_settle
    (show min level s.nextLevel ≤ s.frames.length by omega) kind
  obtain ⟨before, hbefore⟩ : ∃ before, before = (s.settle (min level s.nextLevel) kind).note
    (if s.nextLevel < level then [m.diagnose .indentJump 1] else []) := ⟨_, rfl⟩
  have hframes' : before.frames = down (min level s.nextLevel) := hbefore ▸ hframes
  have htracks : Tracks before (g.settle (min level s.nextLevel)) := by
    rw [hbefore]
    exact (h.settle _ kind).of_eq rfl rfl
  have hsound : before.Sound P := hbefore ▸ (hs.narrows hnarrows).note _
  have hledger : g.readBody s m level line =
      (g.settle (min level s.nextLevel)).readKind before m (min level s.nextLevel) line kind := by
    rw [hbefore, readKind_note, ← hkind]
    rfl
  rw [s.readBody_eq, hkind, ← hbefore, hledger]
  have hlength : before.frames.length = min level s.nextLevel := by
    rw [hframes', length_down]
  exact htracks.accounts hsound hframes'
    (accounts_readKind (hkind ▸ LineKind.heads_ofText line) hlength hline hl) hm

theorem Tracks.readField (h : Tracks s g) (m : Mark) (base level : Nat) (line : Text) :
    Tracks (s.readField m base level line) g := by
  rcases s.readField_cases m base level line with ⟨ds, -, -, he⟩ | ⟨-, f, -, he⟩ <;>
    exact he ▸ h.of_eq rfl rfl

theorem Tracks.readAlias (h : Tracks s g) (m : Mark) (base level : Nat) (line : Text) :
    Tracks (s.readAlias m base level line) g := by
  rcases s.readAlias_cases m base level line with ⟨ds, -, -, he⟩ | ⟨-, a, -, he⟩ <;>
    exact he ▸ h.of_eq rfl rfl

/-- Reading a line keeps the account true. -/
theorem Tracks.step (h : Tracks s g) (hs : s.Sound P) (hl : Unbroken l.text) :
    Tracks (s.step l) (g.step s l) ∧ Grows l g (g.step s l) := by
  obtain ⟨margin, hmargin⟩ : ∃ margin, Margin.ofLine l.text = margin := ⟨_, rfl⟩
  rw [Outliner.step, Ledger.step, hmargin]
  cases margin with
  | blank => exact ⟨h, Or.inl rfl⟩
  | tab column => exact ⟨h.of_eq rfl rfl, Or.inl rfl⟩
  | odd column => exact ⟨h.of_eq rfl rfl, Or.inl rfl⟩
  | level level content =>
    obtain ⟨hends, hone⟩ := Margin.content_of_level hmargin hl
    have hclosed : Tracks (s.closeHeaders level) g := h.of_eq rfl rfl
    simp only [Outliner.readLevel]
    cases hprops : (s.closeHeaders level).propsLevel with
    | some base =>
      exact ⟨hclosed.readField (l.mark (2 * level + 1)) base level content, Or.inl rfl⟩
    | none =>
      cases hclasses : (s.closeHeaders level).classesLevel with
      | some base =>
        exact ⟨hclosed.readAlias (l.mark (2 * level + 1)) base level content, Or.inl rfl⟩
      | none =>
        have hsound := hs.narrows (hs.leveled.narrows_closeHeaders level)
        exact hclosed.readBody hsound rfl hends hone level

/-! ## All lines -/

/-- The slots stand in the order of their lines, which come before a line. -/
def Ordered (number : Nat) (qs : List Slot) : Prop :=
  ∃ spans : List Span, qs.map Slot.span = spans.map some ∧
    spans.Pairwise (·.start.line < ·.start.line) ∧ ∀ span ∈ spans, span.start.line < number

/-- New slots belong to the line that is read, behind all others. -/
theorem Ordered.grows {g' : Ledger} (h : Ordered l.number g.slots) (hg : Grows l g g') :
    Ordered (l.number + 1) g'.slots := by
  obtain ⟨spans, hspans, hpairs, hlt⟩ := h
  rcases hg with hsame | ⟨span, hspan, hline⟩
  · refine ⟨spans, hsame.trans hspans, hpairs, fun a ha => ?_⟩
    have := hlt a ha
    omega
  · refine ⟨spans ++ [span], ?_, ?_, ?_⟩
    · rw [hspan, hspans, List.map_append, List.map_singleton]
    · refine List.pairwise_append.mpr ⟨hpairs, List.pairwise_singleton .., ?_⟩
      intro a ha b hb
      obtain rfl := List.mem_singleton.mp hb
      rw [hline]
      exact hlt a ha
    · intro a ha
      rcases List.mem_append.mp ha with ha | ha
      · have := hlt a ha
        omega
      · obtain rfl := List.mem_singleton.mp ha
        omega

/-- The account is true after any number of lines, and it does not disturb the reading. -/
theorem tracks_run {ts : List Text} {number : Nat} (offset : Nat) (h : Tracks s g)
    (hs : s.Sound fun _ => True) (hg : Ordered number g.slots) (hts : ∀ w ∈ ts, Unbroken w) :
    ∃ g', (Line.numberFrom number offset ts).foldl Template.stepNoting (s, g) =
        ((Line.numberFrom number offset ts).foldl Outliner.step s, g') ∧
      Tracks ((Line.numberFrom number offset ts).foldl Outliner.step s) g' ∧
      Ordered (number + ts.length) g'.slots := by
  induction ts generalizing s g number offset with
  | nil => exact ⟨g, rfl, h, hg⟩
  | cons w ts ih =>
    obtain ⟨hw, hts⟩ := List.forall_mem_cons.mp hts
    obtain ⟨hstep, hgrows⟩ := h.step (l := ⟨number, offset, w⟩) hs hw
    obtain ⟨g', hrun, htracks, hordered⟩ := ih (offset + w.length + 1) hstep
      (Outliner.sound_step hs hw (Outliner.yields_true _)) (Ordered.grows hg hgrows) hts
    refine ⟨g', hrun, htracks, ?_⟩
    rwa [List.length_cons, Nat.add_comm ts.length, ← Nat.add_assoc]

end Ledger

/-! ## The reports -/

namespace Template

/-- Reading a template with an account of its branches and loops: the account lists the slots of
the tree, in the order of their lines. -/
theorem exists_outlineNoting (s : Text) : ∃ g number,
    outlineNoting (unifyNewlines s) = (outline (unifyNewlines s), g) ∧
      g.slots = slotsIn (read s).template.children ∧ Ledger.Ordered number g.slots := by
  have htracks : Ledger.Tracks (Outliner.start (some (wholeSpan (unifyNewlines s)))) .start :=
    ⟨rfl, rfl, by simp [Ledger.start]⟩
  have hordered : Ledger.Ordered 1 Ledger.start.slots := ⟨[], rfl, List.Pairwise.nil, by simp⟩
  obtain ⟨g, hrun, htracks', hordered'⟩ := Ledger.tracks_run 0 htracks
    (Outliner.sound_start _) hordered fun w hw => unbroken_of_mem_lines hw
  exact ⟨g, _, hrun, htracks'.slots, hordered'⟩

variable {d : Diagnostic}

/-- The bodies that are empty are the slots that are not filled. -/
theorem emptyBodies_eq (t : Template) : t.emptyBodies =
    (Slot.empties false (slotsIn t.children)).map Slot.report ++
      (Slot.empties true (slotsIn t.children)).map Slot.report := by
  have hreport : ∀ (isLoop : Bool) (qs : List Slot),
      (Slot.empties isLoop qs).map Slot.report = ((Slot.empties isLoop qs).map Slot.span).map
        (Diagnostic.ofProblem (if isLoop then .emptyLoop else .emptyBranch)) := by
    intro isLoop qs
    rw [List.map_map]
    refine List.map_congr_left fun q hq => ?_
    have hkind : q.isLoop = isLoop := by
      have := (List.mem_filter.mp hq).2
      simp only [Bool.and_eq_true, beq_iff_eq] at this
      exact this.1
    rw [Slot.report, hkind]
    rfl
  rw [emptyBodies, emptyBranchesIn_eq, emptyLoopsIn_eq, hreport, hreport]
  rfl

/-- Keeping account of branches and loops finds the bodies that stay empty in the tree. -/
theorem readNoting_eq (s : Text) : readNoting s = read s := by
  obtain ⟨g, -, hrun, hslots, -⟩ := exists_outlineNoting s
  have hreports : g.reports = (outline (unifyNewlines s)).template.emptyBodies := by
    rw [Ledger.reports, hslots, List.map_append, emptyBodies_eq]
    rfl
  rw [readNoting, hrun]
  simp only [hreports]
  rfl

/-- A body that is reported as empty has a slot that is not filled. -/
theorem exists_slot_of_mem_emptyBodies {t : Template} (hd : d ∈ t.emptyBodies) :
    ∃ q ∈ slotsIn t.children, q.filled = false ∧ d.span = q.span := by
  have hempty : ∀ {isLoop : Bool} {q : Slot}, q ∈ Slot.empties isLoop (slotsIn t.children) →
      q ∈ slotsIn t.children ∧ q.filled = false := by
    intro isLoop q hq
    obtain ⟨hmem, hq⟩ := List.mem_filter.mp hq
    simp only [Bool.and_eq_true, Bool.not_eq_true'] at hq
    exact ⟨hmem, hq.2⟩
  rw [emptyBodies_eq, ← List.map_append] at hd
  obtain ⟨q, hq, rfl⟩ := List.mem_map.mp hd
  rcases List.mem_append.mp hq with hq | hq
  · exact ⟨q, (hempty hq).1, (hempty hq).2, rfl⟩
  · exact ⟨q, (hempty hq).1, (hempty hq).2, rfl⟩

/-- Bodies that stay empty are reported at the end, and once each: the branches without a body in
the order of their lines, and then the loops. No two branches or loops start on one line, so a
report tells which of them it is about, and one with a node in it is not reported. An account that
is kept while the template is read comes to the same. -/
theorem emptyBodies_reported (s : Text) :
    (∃ found, (read s).diagnostics = found ++
        (Slot.empties false (slotsIn (read s).template.children)).map Slot.report ++
        (Slot.empties true (slotsIn (read s).template.children)).map Slot.report ∧
      ∀ d ∈ found, ¬ d.OfBody) ∧
    (∃ spans : List Span, (slotsIn (read s).template.children).map Slot.span = spans.map some ∧
      spans.Pairwise (·.start.line < ·.start.line)) ∧
    (∀ q ∈ slotsIn (read s).template.children, q.filled = true →
      ∀ d ∈ (read s).diagnostics, d.OfBody → d.span ≠ q.span) ∧
    readNoting s = read s := by
  obtain ⟨g, number, -, hslots, spans, hspans, hpairs, -⟩ := exists_outlineNoting s
  rw [hslots] at hspans
  have hfound : ∀ d ∈ (outline (unifyNewlines s)).diagnostics, ¬ d.OfBody := by
    intro d hd
    obtain ⟨-, -, -, -, hbody⟩ := reports_outline hd
    exact hbody
  refine ⟨⟨_, ?_, hfound⟩, ⟨spans, hspans, hpairs⟩, ?_, readNoting_eq s⟩
  · rw [List.append_assoc, ← emptyBodies_eq]
    rfl
  · intro q hq hfilled d hd hbody hspan
    have hd' := (List.mem_append.mp hd).resolve_left fun hd => hfound d hd hbody
    obtain ⟨q', hq', hempty, hspan'⟩ := exists_slot_of_mem_emptyBodies hd'
    have hnodup : ((slotsIn (read s).template.children).map Slot.span).Nodup := by
      rw [hspans]
      refine List.Pairwise.map _ (fun a b hab hsame => ?_) hpairs
      obtain rfl := Option.some.inj hsame
      exact Int.lt_irrefl _ hab
    obtain rfl := List.inj_on_of_nodup_map hnodup hq' hq (hspan'.symm.trans hspan)
    rw [hfilled] at hempty
    cases hempty

end Template

end Offside
