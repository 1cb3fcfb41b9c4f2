import Offside.Proofs.Markup.Run
import Offside.Proofs.Template.Flush

/-! Texts and expressions alone in an element. Whatever the texts are, they are read back as they
were, and the element takes one line but for one kind of text: one that is written as it is although
it ends with a line feed. -/
namespace Offside.Markup

open Text Ir

variable {s t v run tag : Text} {c : List Ir.Node} {n : Ir.Node} {classes : List Text}
  {attributes : List Attribute} {close : Text → Option Nat} {size : Int}

/-! ## Reading a line -/

/-- Texts that meet as one, between the expressions. -/
def joined : List Ir.Node → List Ir.Node
  | [] => []
  | .text v :: c => consText v (joined c)
  | n :: c => n :: joined c

/-- Reads content up to the first tag in it. A run of text is its own characters, a quoted text
between braces is the text, and any other script is an expression. `close` gives the length of the
script in front of a closing brace, and `skipped` counts the characters that have been read with
such a script. -/
def readFlow (close : Text → Option Nat) : Nat → Text → Option (List Ir.Node)
  | _, [] => none
  | skipped + 1, _ :: s => readFlow close skipped s
  | 0, x :: s =>
    if x == '<' then some []
    else if x == '{' then
      (close s).bind fun n =>
        if s[n]? = some '}' then (readFlow close (n + 1) s).map (say (.expression (s.take n)))
        else none
    else if isTextChar x then (readFlow close 0 s).map (consText [x])
    else none

theorem readFlow_skip (a s : Text) : readFlow close a.length (a ++ s) = readFlow close 0 s := by
  induction a with
  | nil => rfl
  | cons x a ih => exact ih

/-- Plain text is read as itself, in front of whatever follows. -/
theorem readFlow_text (hv : ∀ x ∈ v, isTextChar x = true) (s : Text) :
    readFlow close 0 (v ++ s) = (readFlow close 0 s).map (consText v) := by
  induction v with
  | nil => exact Option.map_id'.symm
  | cons x v ih =>
    obtain ⟨hx, hv⟩ := List.forall_mem_cons.mp hv
    have hsigns : x ≠ '<' ∧ x ≠ '{' := by
      constructor <;> rintro rfl <;> cases hx
    rw [List.cons_append, readFlow]
    simp only [beq_iff_eq, hsigns, hx, if_false, if_true]
    rw [ih hv, Option.map_map]
    congr 1
    funext ns
    exact (consText_append [x] v ns).symm

theorem readFlow_braced {e : Text} (he : close (e ++ '}' :: s) = some e.length) :
    readFlow close 0 (braced e ++ s) = (readFlow close 0 s).map (say (.expression e)) := by
  have hskip : readFlow close (e.length + 1) (e ++ '}' :: s) = readFlow close 0 s := by
    simpa using readFlow_skip (e ++ ['}']) s
  have hwrite : braced e ++ s = '{' :: (e ++ '}' :: s) := by simp [braced]
  rw [hwrite, readFlow]
  simp [he, hskip]

theorem readFlow_inlineText (hclose : Delimits close c) (v s : Text) :
    readFlow close 0 (inlineText v ++ s) = (readFlow close 0 s).map (consText v) := by
  rw [inlineText]
  split
  · next hempty =>
    obtain rfl := List.isEmpty_iff.mp hempty
    exact Option.map_id'.symm
  · split
    · next hplain => exact readFlow_text (isTextChar_of_isPlain hplain) s
    · have hread := readFlow_braced (hclose.quoted v s)
      rwa [funext (say_quote v)] at hread

/-! ## Writing a line -/

/-- How a text or an expression is written within a line. -/
def flowOf : Ir.Node → Text
  | .text v => inlineText v
  | .expression e => braced e
  | _ => []

/-- A text that is written as it is although it ends with a line feed. -/
def EndsLine (v : Text) : Prop :=
  ∃ body, body ≠ [] ∧ (∀ x ∈ body, isMarkupSpecial x = false) ∧ v = body ++ ['\n']

/-- An attribute without a line break. -/
def Unbreaking : Attribute → Prop
  | .named name value => Unbroken name ∧ ∀ v ∈ value, Unbroken v
  | .expression e => Unbroken e

/-- What is asked of an element: its children are texts and expressions that show something, it has
no line break outside of its texts, and no expression in it is a quoted text. -/
structure Flows (tag : Text) (attributes : List Attribute) (c : List Ir.Node) : Prop where
  tag : Unbroken tag
  attributes : ∀ a ∈ attributes, Unbreaking a
  children : ∀ n ∈ c, (∃ v, n = .text v) ∨ ∃ e, n = .expression e ∧ Unbroken e ∧ unquoted? e = none
  shows : ∃ n ∈ c, n ≠ .text []

theorem flowOf_ne_nil (h : n ≠ .text []) (hn : inlineChild? n = some (flowOf n)) :
    flowOf n ≠ [] := by
  cases n with
  | text v =>
    have hv : v ≠ [] := fun hv => h (hv ▸ rfl)
    rw [flowOf, inlineText, if_neg (by simpa using hv)]
    split
    · exact hv
    · exact List.cons_ne_nil _ _
  | expression e => exact List.cons_ne_nil _ _
  | element _ _ _ _ | fragment _ | conditional _ | foreign => cases hn

theorem mapM_inlineChild? (h : ∀ n ∈ c, inlineChild? n = some (flowOf n)) :
    c.mapM inlineChild? = some (c.map flowOf) := by
  induction c with
  | nil => rfl
  | cons n c ih =>
    obtain ⟨hn, hc⟩ := List.forall_mem_cons.mp h
    rw [List.mapM_cons, hn, ih hc]
    rfl

theorem inlineRun?_of_flows (h : Flows tag attributes c) :
    inlineRun? c = some (c.flatMap flowOf) := by
  have hchildren : ∀ n ∈ c, inlineChild? n = some (flowOf n) := by
    intro n hn
    rcases h.children n hn with ⟨v, rfl⟩ | ⟨e, rfl, -, -⟩ <;> rfl
  obtain ⟨n, hn, hne⟩ := h.shows
  rw [inlineRun?, mapM_inlineChild? hchildren, List.flatMap_def]
  simpa using ⟨n, hn, flowOf_ne_nil hne (hchildren n hn)⟩

theorem anyForeign_eq_any (c : List Ir.Node) : anyForeign c = c.any hasForeign := by
  induction c with
  | nil => rfl
  | cons n c ih => rw [anyForeign, ih, List.any_cons]

theorem anyForeign_of_flows (h : Flows tag attributes c) : anyForeign c = false := by
  rw [anyForeign_eq_any, List.any_eq_false]
  intro n hn
  rcases h.children n hn with ⟨v, rfl⟩ | ⟨e, rfl, -, -⟩ <;> simp [hasForeign]

def lineOfElement (tag : Text) (classes : List Text) (attributes : List Attribute)
    (content : Text) : Text :=
  '<' :: tag ++ writeAttributes classes attributes ++ '>' :: content ++ '<' :: '/' :: tag ++ ['>']

/-- An element whose children flow is written on one line. -/
theorem writeMarkup?_of_flows (h : Flows tag attributes c) (hsize : checkIndent size = .ok ())
    (classes : List Text) : writeMarkup? size [.element tag classes attributes c] =
      .ok (lineOfElement tag classes attributes (c.flatMap flowOf) ++ ['\n']) := by
  have hne : c ≠ [] := by
    obtain ⟨n, hn, -⟩ := h.shows
    exact List.ne_nil_of_mem hn
  have hforeign : anyForeign [.element tag classes attributes c] = false := by
    simp [anyForeign, hasForeign, anyForeign_of_flows h]
  have hlines : markupDocument size [.element tag classes attributes c] =
      [lineOfElement tag classes attributes (c.flatMap flowOf)] := by
    rw [markupDocument, markupLines, inlineRun?_of_flows h]
    · simp [indentation_zero, lineOfElement]
    · exact hne
  rw [writeMarkup?, hsize, writeMarkup, hlines, hforeign]
  simp [Except.mapError, bind, Except.bind, unlines]

/-! ## Line breaks -/

theorem ne_of_not_special {x : Char} (h : isMarkupSpecial x = false) : x ≠ '\n' ∧ x ≠ '\r' := by
  constructor <;> rintro rfl <;> cases h

/-- A text that is written as it is holds no line break, but for one at its end. -/
theorem isPlain_iff : isPlain v = true ↔
    EndsLine v ∨ v ≠ [] ∧ ∀ x ∈ v, isMarkupSpecial x = false := by
  rcases List.eq_nil_or_concat v with rfl | ⟨body, y, rfl⟩
  · simp [isPlain, EndsLine]
  · by_cases hy : y = '\n'
    · subst hy
      have hspecial : isMarkupSpecial '\n' = true := rfl
      simp [isPlain, EndsLine, hspecial]
    · simp [isPlain, EndsLine, hy, or_imp, forall_and]

theorem unbroken_braced {e : Text} (he : Unbroken e) : Unbroken (braced e) := by
  rw [braced, List.cons_append, unbroken_cons, unbroken_append]
  exact ⟨by decide, he, by simp [Unbroken]⟩

/-- Only a text that ends a line brings a line break. -/
theorem unbroken_inlineText_iff : Unbroken (inlineText v) ↔ ¬EndsLine v := by
  have hends : EndsLine v → ¬Unbroken v := by
    rintro ⟨body, -, -, rfl⟩ h
    exact (h '\n' (by simp)).1 rfl
  rw [inlineText]
  split
  · next hempty =>
    obtain rfl := List.isEmpty_iff.mp hempty
    exact iff_of_true unbroken_nil fun h => hends h unbroken_nil
  · split
    · next hplain =>
      refine ⟨fun h h' => hends h' h, fun h => ?_⟩
      obtain ⟨-, hchars⟩ := (isPlain_iff.mp hplain).resolve_left h
      exact fun x hx => ne_of_not_special (hchars x hx)
    · next hplain =>
      exact iff_of_true (unbroken_braced (unbroken_quote v))
        fun h => hplain (isPlain_iff.mpr (Or.inl h))

theorem unbroken_flow_iff (h : Flows tag attributes c) :
    Unbroken (c.flatMap flowOf) ↔ ∀ v, .text v ∈ c → ¬EndsLine v := by
  rw [unbroken_flatMap]
  constructor
  · exact fun hflow v hv => unbroken_inlineText_iff.mp (hflow _ hv)
  · intro hends n hn
    rcases h.children n hn with ⟨v, rfl⟩ | ⟨e, rfl, he, -⟩
    · exact unbroken_inlineText_iff.mpr (hends v hn)
    · exact unbroken_braced he

theorem unbroken_attribute {a : Attribute} (h : Unbreaking a) : Unbroken a.write := by
  cases a with
  | expression e => exact unbroken_braced h
  | named name value =>
    obtain ⟨hname, hvalue⟩ := h
    cases value with
    | none => exact hname
    | some value =>
      rw [Attribute.write, unbroken_append, unbroken_cons]
      exact ⟨hname, by decide, hvalue value rfl⟩

/-- The classes are quoted, so they may hold anything. -/
theorem unbroken_writeAttributes (h : ∀ a ∈ attributes, Unbreaking a) (classes : List Text) :
    Unbroken (writeAttributes classes attributes) := by
  rw [writeAttributes, unbroken_flatMap]
  intro segment hsegment
  rw [unbroken_cons]
  refine ⟨by decide, ?_⟩
  rcases List.mem_append.mp hsegment with hclass | hattribute
  · split at hclass
    · cases hclass
    · rw [List.mem_singleton.mp hclass, unbroken_append]
      exact ⟨by simp [Unbroken], unbroken_quote _⟩
  · obtain ⟨a, ha, rfl⟩ := List.mem_map.mp hattribute
    exact unbroken_attribute (h a ha)

/-! ## The element -/

/-- Every text and expression is read back. -/
theorem readFlow_flow (h : Flows tag attributes c) (hclose : Delimits close c) (s : Text) :
    readFlow close 0 (c.flatMap flowOf ++ '<' :: s) = some (joined c) := by
  have hchildren := h.children
  clear h
  induction c with
  | nil => rfl
  | cons n c ih =>
    obtain ⟨hn, hc⟩ := List.forall_mem_cons.mp hchildren
    rw [List.flatMap_cons, List.append_assoc]
    rcases hn with ⟨v, rfl⟩ | ⟨e, rfl, -, he⟩
    · rw [flowOf, readFlow_inlineText hclose, ih hclose.tail hc]
      rfl
    · rw [flowOf, readFlow_braced (hclose.code e _ List.mem_cons_self), ih hclose.tail hc]
      simp [say, he, joined]

theorem unbroken_lineOfElement (h : Flows tag attributes c) (classes : List Text)
    (content : Text) :
    Unbroken (lineOfElement tag classes attributes content) ↔ Unbroken content := by
  have hattributes := unbroken_writeAttributes h.attributes classes
  simp [lineOfElement, unbroken_append, unbroken_cons, unbroken_nil, h.tag, hattributes]

/-- An element whose children are texts and expressions takes one line, whatever the texts are, if
and only if no text in it ends a line and yet is written as it is. In any case the texts between
the expressions are read back, by every reader of scripts that finds the end of quoted texts and of
the expressions. -/
theorem unbroken_line_iff (h : Flows tag attributes c) (hsize : checkIndent size = .ok ())
    (classes : List Text) : ∃ content,
      writeMarkup? size [.element tag classes attributes c] =
        .ok (lineOfElement tag classes attributes content ++ ['\n']) ∧
      (Unbroken (lineOfElement tag classes attributes content) ↔
        ∀ v, .text v ∈ c → ¬EndsLine v) ∧
      ∀ close, Delimits close c →
        readFlow close 0 (content ++ '<' :: '/' :: tag ++ ['>']) = some (joined c) := by
  refine ⟨c.flatMap flowOf, writeMarkup?_of_flows h hsize classes, ?_, fun close hclose => ?_⟩
  · rw [unbroken_lineOfElement h, unbroken_flow_iff h]
  · rw [List.append_assoc, List.cons_append]
    exact readFlow_flow h hclose _

/-- A text of two lines, an expression, an empty text, a line break alone, and a brace. -/
def brokenTexts : List Ir.Node :=
  [.text ['a', '\n', 'b'], .expression ['n'], .text [], .text ['\r', '\n'], .text ['\x7b']]

theorem flows_brokenTexts : Flows ['p'] [.named ['i', 'd'] none] brokenTexts where
  tag := by simp [Unbroken]
  attributes := by simp [Unbreaking, Unbroken]
  children := by
    have hcode : Unbroken ['n'] ∧ unquoted? ['n'] = none := ⟨by simp [Unbroken], rfl⟩
    simp [brokenTexts, hcode]
  shows := ⟨.expression ['n'], by simp [brokenTexts], nofun⟩

theorem unbroken_line_brokenTexts : ∃ content,
    writeMarkup? 2 [.element ['p'] [] [.named ['i', 'd'] none] brokenTexts] =
      .ok (lineOfElement ['p'] [] [.named ['i', 'd'] none] content ++ ['\n']) ∧
    Unbroken (lineOfElement ['p'] [] [.named ['i', 'd'] none] content) ∧
    readFlow scriptLength? 0 (content ++ "</p>".toList) =
      some [.text ['a', '\n', 'b'], .expression ['n'], .text ['\r', '\n', '\x7b']] := by
  have hclose : Delimits scriptLength? brokenTexts := by
    refine ⟨scriptLength?_quote, fun e s he => ?_⟩
    obtain rfl : e = ['n'] := by simpa [brokenTexts] using he
    exact scriptLength?_name s
  have hends : ∀ v, .text v ∈ brokenTexts → ¬EndsLine v := by
    intro v hv h
    have hplain := isPlain_iff.mpr (Or.inl h)
    simp only [brokenTexts, List.mem_cons, List.not_mem_nil, or_false, Ir.Node.text.injEq,
      reduceCtorEq, false_or] at hv
    rcases hv with rfl | rfl | rfl | rfl <;> exact absurd hplain (by decide)
  have hsize : checkIndent 2 = .ok () := rfl
  obtain ⟨content, hwrite, hline, hread⟩ := unbroken_line_iff flows_brokenTexts hsize []
  have hjoined : joined brokenTexts =
      [.text ['a', '\n', 'b'], .expression ['n'], .text ['\r', '\n', '\x7b']] := rfl
  refine ⟨content, hwrite, hline.mpr hends, ?_⟩
  rw [← hjoined]
  simpa using hread scriptLength? hclose

/-- The text is one line with a line break behind it, and the element takes two lines. -/
theorem not_unbroken_line_endedText :
    Flows ['p'] [] [.text ['a', '\n']] ∧
    writeMarkup? 2 [.element ['p'] [] [] [.text ['a', '\n']]] = .ok "<p>a\n</p>\n".toList ∧
    ¬∃ line, Unbroken line ∧ "<p>a\n</p>\n".toList = line ++ ['\n'] := by
  refine ⟨⟨by simp [Unbroken], nofun, by simp, ⟨_, List.mem_cons_self, by simp⟩⟩, by decide +kernel,
    ?_⟩
  rintro ⟨line, hline, hwrite⟩
  have hcut : "<p>a\n</p>\n".toList = "<p>a\n</p>".toList ++ ['\n'] := by decide +kernel
  rw [hcut] at hwrite
  have hfeed : '\n' ∈ line := List.append_cancel_right hwrite ▸ (by decide +kernel)
  exact (hline '\n' hfeed).1 rfl

end Offside.Markup
