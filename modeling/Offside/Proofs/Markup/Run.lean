import Offside.Proofs.Ir.Inside
import Offside.Proofs.Markup.Read
import Offside.Proofs.Markup.Shown
import Offside.Proofs.Text.Quoted

/-! Texts and expressions as a reader of markup shows them. On one line they are shown as they are.
On lines of their own a line break between two texts is shown as a space, unless one of them is
quoted. -/
namespace Offside.Markup

open Text Ir

variable {margin raw s t v w : Text} {ws : List Text} {c d : List Ir.Node} {n m : Ir.Node}
  {close : Text → Option Nat}

/-! ## Content -/

/-- Puts a text or an expression in front of what is shown. An expression that is a text between
quotes is shown as that text, and texts that meet are one. -/
def say : Ir.Node → List Ir.Node → List Ir.Node
  | .text v, ns => consText v ns
  | .expression e, ns =>
    match unquoted? e with
    | some v => consText v ns
    | none => .expression e :: ns
  | n, ns => n :: ns

/-- Texts and expressions with the texts that meet as one. -/
def said (c : List Ir.Node) : List Ir.Node := c.foldr say []

@[simp] theorem said_nil : said [] = [] := rfl

@[simp] theorem said_cons : said (n :: c) = say n (said c) := rfl

/-- Reads the content of an element up to the first tag in it. `close` gives the length of the
script in front of a closing brace, `skipped` counts the characters that have been read with such a
script, and `raw` is the text that has been read since the last tag or brace. -/
def readRun (close : Text → Option Nat) : Nat → Text → Text → Option (List Ir.Node)
  | _, _, [] => none
  | skipped + 1, raw, _ :: s => readRun close skipped raw s
  | 0, raw, x :: s =>
    if x == '<' then some (say (.text (shown raw)) [])
    else if x == '{' then
      (close s).bind fun n =>
        if s[n]? = some '}' then
          (readRun close (n + 1) [] s).map fun ns =>
            say (.text (shown raw)) (say (.expression (s.take n)) ns)
        else none
    else if isTextChar x then readRun close 0 (raw ++ [x]) s
    else none

/-- Reads an element up to the first tag in its content. `opening` is what it starts with, but for
the end of its tag. An element that closes itself has no content. -/
def readElement? (close : Text → Option Nat) (opening s : Text) : Option (List Ir.Node) :=
  (s.dropPrefix? opening).bind fun
    | '>' :: s => readRun close 0 [] s
    | ' ' :: '/' :: '>' :: _ => some []
    | _ => none

theorem readRun_skip (a s : Text) :
    readRun close a.length raw (a ++ s) = readRun close 0 raw s := by
  induction a with
  | nil => rfl
  | cons x a ih => exact ih

theorem readRun_text (hv : ∀ x ∈ v, isTextChar x = true) (s : Text) :
    readRun close 0 raw (v ++ s) = readRun close 0 (raw ++ v) s := by
  induction v generalizing raw with
  | nil => rw [List.nil_append, List.append_nil]
  | cons x v ih =>
    obtain ⟨hx, hv⟩ := List.forall_mem_cons.mp hv
    have hsigns : x ≠ '<' ∧ x ≠ '{' := by
      constructor <;> rintro rfl <;> cases hx
    rw [List.cons_append, readRun]
    simp only [beq_iff_eq, hsigns, hx, if_false, if_true]
    rw [ih hv, List.append_assoc, List.singleton_append]

theorem readRun_braced {e : Text} (he : close (e ++ '}' :: s) = some e.length) :
    readRun close 0 raw (braced e ++ s) = (readRun close 0 [] s).map fun ns =>
      say (.text (shown raw)) (say (.expression e) ns) := by
  have hskip : readRun close (e.length + 1) [] (e ++ '}' :: s) = readRun close 0 [] s := by
    simpa using readRun_skip (e ++ ['}']) s
  have hwrite : braced e ++ s = '{' :: (e ++ '}' :: s) := by simp [braced]
  rw [hwrite, readRun]
  simp [he, hskip]

/-! ## Texts and expressions as they are written -/

/-- What stands within a line: an expression, or a text that says something. -/
inductive Inline : Ir.Node → Prop
  | text {v : Text} : v ≠ [] → Unbroken v → Inline (.text v)
  | expression {e : Text} : Inline (.expression e)

/-- A reader of scripts that finds the end of quoted texts, and of the expressions among nodes. -/
structure Delimits (close : Text → Option Nat) (c : List Ir.Node) : Prop where
  quoted : ∀ v s, close (quote v ++ '}' :: s) = some (quote v).length
  code : ∀ e s, .expression e ∈ c → close (e ++ '}' :: s) = some e.length

theorem Delimits.tail (h : Delimits close (n :: c)) : Delimits close c where
  quoted := h.quoted
  code e s he := h.code e s (List.mem_cons_of_mem n he)

theorem say_quote (v : Text) (ns : List Ir.Node) :
    say (.expression (quote v)) ns = say (.text v) ns := by
  simp [say, unquoted?_quote]

theorem readRun_quotedText (h : Delimits close c) (v s : Text) :
    readRun close 0 raw (quotedText v ++ s) = (readRun close 0 [] s).map fun ns =>
      say (.text (shown raw)) (say (.text v) ns) := by
  have hbraced := @readRun_braced raw s close (quote v) (h.quoted v s)
  simp only [say_quote] at hbraced
  exact hbraced

theorem consText_append (v w : Text) (ns : List Ir.Node) :
    consText (v ++ w) ns = consText v (consText w ns) := by
  rcases v with _ | ⟨x, v⟩
  · rfl
  · rcases w with _ | ⟨y, w⟩
    · simp [consText]
    · rcases ns with _ | ⟨_ | _ | _ | _ | _ | _, ns⟩ <;> simp [consText]

/-! ## Content on one line -/

/-- Children that fit on a line each have a part of it. -/
theorem exists_inlineChildren (hc : ∀ n ∈ c, Inline n) :
    ∃ parts, c.mapM inlineChild? = some parts ∧ parts.length = c.length ∧
      ∀ part ∈ parts, part ≠ [] := by
  induction c with
  | nil => exact ⟨[], rfl, rfl, nofun⟩
  | cons n c ih =>
    obtain ⟨hn, hc⟩ := List.forall_mem_cons.mp hc
    obtain ⟨parts, hparts, hlength, hne⟩ := ih hc
    obtain ⟨part, hpart, hpartne⟩ : ∃ part, inlineChild? n = some part ∧ part ≠ [] := by
      cases hn with
      | @text v hv _ =>
        refine ⟨inlineText v, rfl, ?_⟩
        rw [inlineText, if_neg (by simpa using hv)]
        split
        · exact hv
        · exact List.cons_ne_nil _ _
      | @expression e => exact ⟨braced e, rfl, List.cons_ne_nil _ _⟩
    refine ⟨part :: parts, by simp [List.mapM_cons, hpart, hparts], by simp [hlength], ?_⟩
    exact List.forall_mem_cons.mpr ⟨hpartne, hne⟩

/-- On one line everything is read as it is, with texts that meet as one. -/
theorem readRun_inlineChildren (hc : ∀ n ∈ c, Inline n) (hclose : Delimits close c)
    (hraw : Unbroken raw) {parts : List Text} (hparts : c.mapM inlineChild? = some parts)
    (t : Text) :
    readRun close 0 raw (parts.flatten ++ '<' :: t) = some (consText raw (said c)) := by
  induction c generalizing raw parts with
  | nil =>
    obtain rfl : parts = [] := by simpa using hparts.symm
    simp [readRun, say, said, shown_of_unbroken hraw]
  | cons n c ih =>
    obtain ⟨hn, hc⟩ := List.forall_mem_cons.mp hc
    obtain ⟨part, more, hpart, hmore, rfl⟩ := exists_inlineChild hparts
    have hrest : ∀ raw, Unbroken raw →
        readRun close 0 raw (more.flatten ++ '<' :: t) = some (consText raw (said c)) :=
      fun raw hraw => ih hc hclose.tail hraw hmore
    rw [List.flatten_cons, List.append_assoc]
    cases hn with
    | @text v hv hline =>
      obtain rfl := Option.some.inj hpart
      rw [inlineText, if_neg (by simpa using hv)]
      split
      · next hplain =>
        have hboth : Unbroken (raw ++ v) := List.forall_mem_append.mpr ⟨hraw, hline⟩
        rw [readRun_text (isTextChar_of_isPlain hplain), hrest _ hboth, consText_append]
        rfl
      · rw [readRun_quotedText hclose, hrest [] (List.forall_mem_nil _), shown_of_unbroken hraw]
        rfl
    | @expression e =>
      obtain rfl := Option.some.inj hpart
      rw [readRun_braced (hclose.code e _ List.mem_cons_self), hrest [] (List.forall_mem_nil _),
        shown_of_unbroken hraw]
      rfl

/-! ## Content on lines of its own -/

/-- A text that stands as it is on a line of its own. -/
def isRaw : Ir.Node → Bool
  | .text v => isPlain v && v == trim v
  | _ => false

/-- Nodes with a space between two neighbours that both stand as they are. -/
def spaced : List Ir.Node → List Ir.Node
  | [] => []
  | [n] => [n]
  | n :: m :: ns =>
    if isRaw n && isRaw m then n :: .text [' '] :: spaced (m :: ns) else n :: spaced (m :: ns)

theorem spaced_cons (h : isRaw n = false) (c : List Ir.Node) : spaced (n :: c) = n :: spaced c := by
  cases c <;> simp [spaced, h]

/-- Texts that stand as they are become one, with spaces between them. -/
theorem said_spaced_append (hws : ∀ w ∈ ws, isRaw (.text w) = true)
    (hc : ∀ n ∈ c.head?, isRaw n = false) :
    said (spaced (ws.map .text ++ c)) = consText ([' '].intercalate ws) (said (spaced c)) := by
  induction ws with
  | nil => rfl
  | cons w ws ih =>
    obtain ⟨hw, hws⟩ := List.forall_mem_cons.mp hws
    cases ws with
    | nil =>
      cases c with
      | nil => simp [spaced, said, say]
      | cons n c => simp [spaced, hc n rfl, said, say]
    | cons w' ws =>
      have hw' := hws w' List.mem_cons_self
      have hgap : [' '].intercalate (w :: w' :: ws) =
          w ++ ([' '] ++ [' '].intercalate (w' :: ws)) := by
        simp [List.intercalate]
      rw [hgap, consText_append, consText_append, ← ih hws]
      simp [spaced, hw, hw', said, say]

def lineOf : Ir.Node → Text
  | .text v => markupText v
  | .expression e => braced e
  | _ => []

theorem trimmed_of_isRaw (hn : Inline (.text v)) (hraw : isRaw (.text v) = true) :
    Trimmed v ∧ Unbroken v := by
  cases hn with
  | text hv hbreaks =>
    have htrim : v = trim v := by
      simp only [isRaw, Bool.and_eq_true, beq_iff_eq] at hraw
      exact hraw.2
    have htrimmed := trimmed_trim (htrim ▸ hv)
    exact ⟨htrim ▸ htrimmed, hbreaks⟩

/-- A text that stands as it is on a line. -/
theorem markupText_of_isRaw (hn : Inline (.text v)) (hraw : isRaw (.text v) = true) :
    markupText v = v ∧ ∀ x ∈ v, isTextChar x = true := by
  have hv := (trimmed_of_isRaw hn hraw).1.ne_nil
  have hcond : (isPlain v && v == trim v) = true := hraw
  refine ⟨?_, isTextChar_of_isPlain (Bool.and_eq_true_iff.mp hcond).1⟩
  rw [markupText, if_neg (by simpa using hv), if_pos hcond]

/-- Any other text. -/
theorem markupText_of_not_isRaw (hv : v ≠ []) (hraw : isRaw (.text v) = false) :
    markupText v = quotedText v := by
  have hcond : ¬(isPlain v && v == trim v) = true := by simpa [isRaw] using hraw
  rw [markupText, if_neg (by simpa using hv), if_neg hcond]

/-- A node that does not stand as it is stands in braces. -/
theorem exists_lineOf (hn : Inline n) (hraw : isRaw n = false) (hclose : Delimits close (n :: c)) :
    ∃ e, lineOf n = braced e ∧ (∀ ns, say (.expression e) ns = say n ns) ∧
      ∀ s, close (e ++ '}' :: s) = some e.length := by
  cases hn with
  | @text v hv _ =>
    exact ⟨quote v, markupText_of_not_isRaw hv hraw, say_quote v, hclose.quoted v⟩
  | @expression e =>
    exact ⟨e, rfl, fun _ => rfl, fun s => hclose.code e s List.mem_cons_self⟩

theorem readRun_margin (hmargin : ∀ x ∈ margin, isLineBlank x = true) (s : Text) :
    readRun close 0 raw ('\n' :: (margin ++ s)) = readRun close 0 (raw ++ '\n' :: margin) s := by
  have hchars : ∀ x ∈ '\n' :: margin, isTextChar x = true := by
    refine List.forall_mem_cons.mpr ⟨rfl, fun x hx => ?_⟩
    have hedge := hmargin x hx
    simp only [isLineBlank, Bool.or_eq_true, beq_iff_eq] at hedge
    rcases hedge with rfl | rfl <;> rfl
  rw [← readRun_text hchars s, List.cons_append]

/-- On lines of their own, texts that stand as they are have a space between them. -/
theorem readRun_onLines (hmargin : ∀ x ∈ margin, isLineBlank x = true)
    (hc : ∀ n ∈ c, Inline n) (hclose : Delimits close c)
    (hws : ∀ w ∈ ws, Inline (.text w) ∧ isRaw (.text w) = true) (t : Text) :
    readRun close 0 (onLines margin ws)
        (onLines margin (c.map lineOf) ++ '\n' :: (margin ++ '<' :: t)) =
      some (said (spaced (ws.map .text ++ c))) := by
  -- a text that stands as it is joins those that wait, and anything else is shown behind them
  induction c generalizing ws with
  | nil =>
    have hshown := shown_onLines hmargin fun w hw => trimmed_of_isRaw (hws w hw).1 (hws w hw).2
    rw [said_spaced_append (fun w hw => (hws w hw).2) (by simp), List.map_nil, onLines_nil,
      List.nil_append, readRun_margin hmargin]
    simp [readRun, hshown, spaced, say]
  | cons n c ih =>
    obtain ⟨hn, hrest⟩ := List.forall_mem_cons.mp hc
    have hwrite : onLines margin ((n :: c).map lineOf) ++ '\n' :: (margin ++ '<' :: t) =
        '\n' :: (margin ++ (lineOf n ++ (onLines margin (c.map lineOf) ++
          '\n' :: (margin ++ '<' :: t)))) := by
      simp
    rw [hwrite, readRun_margin hmargin]
    cases hstands : isRaw n with
    | false =>
      obtain ⟨e, hline, hsay, hend⟩ := exists_lineOf hn hstands hclose
      have hshown := shown_onLines hmargin fun w hw => trimmed_of_isRaw (hws w hw).1 (hws w hw).2
      have hnone : ∀ w ∈ ([] : List Text), Inline (.text w) ∧ isRaw (.text w) = true :=
        List.forall_mem_nil _
      have hnext := ih hrest hclose.tail hnone
      rw [onLines_nil, List.map_nil, List.nil_append] at hnext
      rw [said_spaced_append (fun w hw => (hws w hw).2) (by simpa using hstands),
        spaced_cons hstands, hline, readRun_braced (hend _), hshown, hnext, Option.map_some,
        said_cons, hsay]
      rfl
    | true =>
      obtain ⟨v, rfl⟩ : ∃ v, n = .text v := by
        cases hn with
        | @text v _ _ => exact ⟨v, rfl⟩
        | expression => cases hstands
      obtain ⟨hline, hchars⟩ := markupText_of_isRaw hn hstands
      have hmore : ∀ w ∈ ws ++ [v], Inline (.text w) ∧ isRaw (.text w) = true :=
        List.forall_mem_append.mpr ⟨hws, List.forall_mem_singleton.mpr ⟨hn, hstands⟩⟩
      have hnext := ih hrest hclose.tail hmore
      rw [lineOf, hline, readRun_text hchars]
      simpa using hnext

/-! ## What the spaces change -/

/-- How many characters of text are shown. -/
def textLength : List Ir.Node → Nat
  | [] => 0
  | .text v :: ns => v.length + textLength ns
  | _ :: ns => textLength ns

theorem textLength_consText (v : Text) (c : List Ir.Node) :
    textLength (consText v c) = v.length + textLength c := by
  rcases v with _ | ⟨x, v⟩
  · simp [consText]
  · rcases c with _ | ⟨_ | _ | _ | _ | _ | _, c⟩ <;> simp [consText, textLength]
    omega

theorem textLength_said_cons (n : Ir.Node) (c : List Ir.Node) :
    textLength (said (n :: c)) = textLength (said [n]) + textLength (said c) := by
  rw [said_cons, said_cons, said_nil]
  cases n with
  | text v => simp only [say, textLength_consText, textLength, Nat.add_zero]
  | expression e =>
    simp only [say]
    split <;> simp only [textLength_consText, textLength, Nat.add_zero, Nat.zero_add]
  | element _ _ _ _ | fragment _ | conditional _ | foreign => simp [say, textLength]

/-- No two neighbours both stand as they are. -/
def Apart (c : List Ir.Node) : Prop := c.IsChain fun n m => ¬(isRaw n = true ∧ isRaw m = true)

/-- The spaces are shown as well. -/
theorem textLength_said_spaced (c : List Ir.Node) :
    textLength (said c) ≤ textLength (said (spaced c)) ∧
      (textLength (said (spaced c)) ≤ textLength (said c) → Apart c) := by
  fun_induction spaced c with
  | case1 => exact ⟨le_rfl, fun _ => List.isChain_nil⟩
  | case2 n => exact ⟨le_rfl, fun _ => List.isChain_singleton n⟩
  | case3 n m ns hboth ih =>
    have hspace : textLength (said [.text [' ']]) = 1 := rfl
    rw [textLength_said_cons n (m :: ns), textLength_said_cons n (_ :: _),
      textLength_said_cons (.text [' ']), hspace]
    omega
  | case4 n m ns hone ih =>
    rw [textLength_said_cons n (m :: ns), textLength_said_cons n (spaced _)]
    refine ⟨by omega, fun hle => List.isChain_cons_cons.mpr ⟨?_, ih.2 (by omega)⟩⟩
    simpa using hone

/-- The spaces change what is shown, if there are any. -/
theorem said_spaced_eq_iff : said (spaced c) = said c ↔ Apart c := by
  constructor
  · intro h
    exact (textLength_said_spaced c).2 (by rw [h])
  · intro h
    suffices spaced c = c by rw [this]
    fun_induction spaced c with
    | case1 => rfl
    | case2 => rfl
    | case3 n m ns hboth _ =>
      exact absurd (by simpa using hboth) (List.isChain_cons_cons.mp h).1
    | case4 n m ns _ ih => rw [ih (List.isChain_cons_cons.mp h).2]

/-! ## The library's own reader of scripts -/

/-- The length of the script that a text starts with. -/
def scriptLength? (s : Text) : Option Nat :=
  ((Nested.upTo 2 2).sequence true ⟨0, s⟩).map (·.2.pos)

theorem scriptLength?_of_primary {node : Node} {q : Nat}
    (hlead : Expression.lead? ⟨0, s⟩ = none)
    (hprimary : Expression.readPrimary (Nested.upTo 2 1) true ⟨0, s⟩ = some (node, ⟨q, t⟩))
    (ht : Closes t) : scriptLength? s = some q := by
  have hread : (Nested.upTo 2 2).expression true ⟨0, s⟩ = some (node, ⟨q, t⟩) :=
    Expression.read_of_primary (r := 1) rfl hlead hprimary ht
  rw [scriptLength?, Nested.sequence_of_expression (r := 1) rfl hread ht]
  rfl

theorem scriptLength?_quote (v s : Text) :
    scriptLength? (quote v ++ '}' :: s) = some (quote v).length := by
  have hstring := readString_quote (p := 0) v ('}' :: s)
  rw [Nat.zero_add] at hstring
  exact scriptLength?_of_primary rfl hstring ⟨'}', s, rfl, Or.inl rfl⟩

theorem scriptLength?_name (s : Text) : scriptLength? (['n'] ++ '}' :: s) = some 1 :=
  have hname : Expression.readPrimary (Nested.upTo 2 1) true ⟨0, ['n'] ++ '}' :: s⟩ =
      some (.mk .identifier 0 1 [], ⟨1, '}' :: s⟩) := rfl
  scriptLength?_of_primary rfl hname ⟨'}', s, rfl, Or.inl rfl⟩

/-! ## Elements -/

variable {tag : Text} {classes : List Text} {attributes : List Attribute} {size : Int} {level : Nat}

theorem markupLinesOf_inline (hc : ∀ n ∈ c, Inline n) :
    markupLinesOf size level c = c.map (indentation size level ++ lineOf ·) := by
  induction c with
  | nil => rfl
  | cons n c ih =>
    obtain ⟨hn, hc⟩ := List.forall_mem_cons.mp hc
    rw [markupLinesOf, ih hc]
    cases hn <;> rfl

/-- An element starts with its tag after the margin. -/
theorem exists_markupLines_element (size : Int) (level : Nat) (tag : Text) (classes : List Text)
    (attributes : List Attribute) (c : List Ir.Node) : ∃ more rest,
      markupLines size level (.element tag classes attributes c) =
        (indentation size level ++ '<' :: (tag ++ more)) :: rest := by
  rw [markupLines.eq_def]
  dsimp only
  split
  · exact ⟨writeAttributes classes attributes ++ [' ', '/', '>'], [], by simp⟩
  · split
    · next run _ =>
      exact ⟨writeAttributes classes attributes ++ ['>'] ++ run ++ (['<', '/'] ++ tag ++ ['>']), [],
        by simp⟩
    · exact ⟨writeAttributes classes attributes ++ ['>'], markupLinesOf size (level + 1) c ++
        [indentation size level ++ (['<', '/'] ++ tag ++ ['>'])], by simp⟩

/-- What an element starts with, but for the end of its opening tag. -/
def openingOf (size : Int) (level : Nat) (tag : Text) (classes : List Text)
    (attributes : List Attribute) : Text :=
  indentation size level ++ '<' :: tag ++ writeAttributes classes attributes

theorem isLineBlank_of_mem_indentation (size : Int) (level : Nat) :
    ∀ x ∈ indentation size level, isLineBlank x = true := by
  intro x hx
  obtain rfl := List.eq_of_mem_replicate hx
  rfl

theorem readElement?_append (opening s : Text) :
    readElement? close opening (opening ++ '>' :: s) = readRun close 0 [] s := by
  have hdrop : (opening ++ '>' :: s).dropPrefix? opening = some ('>' :: s) :=
    List.dropPrefix?_eq_some_iff.mpr ⟨opening, rfl, beq_self_eq_true opening⟩
  rw [readElement?, hdrop]
  rfl

theorem readElement?_closed (opening : Text) :
    readElement? close opening (opening ++ [' ', '/', '>']) = some [] := by
  have hdrop : (opening ++ [' ', '/', '>']).dropPrefix? opening = some [' ', '/', '>'] :=
    List.dropPrefix?_eq_some_iff.mpr ⟨opening, rfl, beq_self_eq_true opening⟩
  rw [readElement?, hdrop]
  rfl

/-- Texts and expressions alone are read as they are. -/
theorem readElement?_inline (hc : ∀ n ∈ c, Inline n) (hclose : Delimits close c) :
    readElement? close (openingOf size level tag classes attributes)
      (unlines (markupLines size level (.element tag classes attributes c))) = some (said c) := by
  cases c with
  | nil =>
    have hwrite : unlines (markupLines size level (.element tag classes attributes [])) =
        openingOf size level tag classes attributes ++ [' ', '/', '>'] := by
      simp [markupLines, openingOf, unlines_cons]
    rw [hwrite, readElement?_closed, said_nil]
  | cons n ns =>
    obtain ⟨parts, hparts, hlength, hne⟩ := exists_inlineChildren hc
    have hrun : inlineRun? (n :: ns) = some parts.flatten := by
      obtain ⟨part, more, rfl⟩ := List.exists_cons_of_length_eq_add_one hlength
      have hpart := hne part List.mem_cons_self
      simp [inlineRun?, hparts, hpart]
    have hwrite : unlines (markupLines size level (.element tag classes attributes (n :: ns))) =
        openingOf size level tag classes attributes ++
          '>' :: (parts.flatten ++ '<' :: ('/' :: tag ++ ['>'])) := by
      rw [markupLines, hrun]
      · simp [openingOf, unlines_cons]
      · simp
    rw [hwrite, readElement?_append, readRun_inlineChildren hc hclose (by simp [Unbroken]) hparts]
    rfl

/-- With an element behind them they stand on lines of their own. -/
theorem readElement?_onLines (hc : ∀ n ∈ c, Inline n) (hclose : Delimits close c) (tag' : Text)
    (classes' : List Text) (attributes' : List Attribute) (children : List Ir.Node) :
    readElement? close (openingOf size level tag classes attributes)
      (unlines (markupLines size level (.element tag classes attributes
        (c ++ [.element tag' classes' attributes' children])))) = some (said (spaced c)) := by
  obtain ⟨more, rest, hlines⟩ :=
    exists_markupLines_element size (level + 1) tag' classes' attributes' children
  have hnone : inlineRun? (c ++ [.element tag' classes' attributes' children]) = none :=
    inlineRun?_eq_none (k := .element tag' classes' attributes' children) (by simp) rfl
  have hchildren : markupLinesOf size (level + 1)
      (c ++ [.element tag' classes' attributes' children]) =
      c.map (indentation size (level + 1) ++ lineOf ·) ++
        (indentation size (level + 1) ++ '<' :: (tag' ++ more)) :: rest := by
    rw [markupLinesOf_append, markupLinesOf_inline hc, markupLinesOf, hlines, markupLinesOf,
      List.append_nil]
  obtain ⟨t, hwrite⟩ : ∃ t, unlines (markupLines size level (.element tag classes attributes
      (c ++ [.element tag' classes' attributes' children]))) =
      openingOf size level tag classes attributes ++ '>' ::
        (onLines (indentation size (level + 1)) (c.map lineOf) ++
          '\n' :: (indentation size (level + 1) ++ '<' :: t)) := by
    rw [markupLines, hnone]
    · refine ⟨tag' ++ more ++
        (rest ++ [indentation size level ++ (['<', '/'] ++ tag ++ ['>'])]).flatMap ('\n' :: ·), ?_⟩
      simp [openingOf, unlines_cons, hchildren, onLines, List.flatMap_map]
    · simp
  have hnone : ∀ w ∈ ([] : List Text), Inline (.text w) ∧ isRaw (.text w) = true :=
    List.forall_mem_nil _
  have hread := readRun_onLines (isLineBlank_of_mem_indentation size (level + 1)) hc hclose hnone t
  rw [hwrite, readElement?_append]
  simpa using hread

/-- Texts and expressions alone in an element are shown as they are, with texts that meet as one.
With an element behind them there is a space between any two texts that meet and stand as they are,
so that the same is shown just if there are no such texts. -/
theorem said_children (hc : ∀ n ∈ c, Inline n) (hclose : Delimits close c) (size : Int)
    (level : Nat) (tag : Text) (classes : List Text) (attributes : List Attribute) :
    readElement? close (openingOf size level tag classes attributes)
        (unlines (markupLines size level (.element tag classes attributes c))) = some (said c) ∧
      ∀ tag' classes' attributes' children,
        readElement? close (openingOf size level tag classes attributes)
            (unlines (markupLines size level (.element tag classes attributes
              (c ++ [.element tag' classes' attributes' children])))) = some (said (spaced c)) ∧
          (said (spaced c) = said c ↔ Apart c) :=
  ⟨readElement?_inline hc hclose, fun tag' classes' attributes' children =>
    ⟨readElement?_onLines hc hclose tag' classes' attributes' children, said_spaced_eq_iff⟩⟩

/-- A text with a blank at its end, one with a brace, an expression, and one more text. -/
def greeting : List Ir.Node :=
  [.text ['H', 'i', ' '], .text ['{'], .expression ['n'], .text ['!']]

theorem said_children_greeting :
    readElement? scriptLength? ['<', 'p']
        (unlines (markupLines 2 0 (.element ['p'] [] [] greeting))) =
      some [.text ['H', 'i', ' ', '{'], .expression ['n'], .text ['!']] ∧
    readElement? scriptLength? ['<', 'p']
        (unlines (markupLines 2 0 (.element ['p'] [] [] (greeting ++ [.element ['b'] [] [] []])))) =
      some [.text ['H', 'i', ' ', '{'], .expression ['n'], .text ['!']] := by
  have hinline : ∀ n ∈ greeting, Inline n := by
    simp only [greeting, List.forall_mem_cons]
    exact ⟨.text (by simp) (by simp [Unbroken]), .text (by simp) (by simp [Unbroken]), .expression,
      .text (by simp) (by simp [Unbroken]), nofun⟩
  have hclose : Delimits scriptLength? greeting := by
    refine ⟨scriptLength?_quote, fun e s he => ?_⟩
    obtain rfl : e = ['n'] := by simpa [greeting] using he
    exact scriptLength?_name s
  have hsaid : said greeting = [.text ['H', 'i', ' ', '{'], .expression ['n'], .text ['!']] := rfl
  have hbrace : isPlain ['{'] = false := rfl
  have hapart : Apart greeting := by simp [Apart, greeting, isRaw, hbrace]
  obtain ⟨hline, hlines⟩ := said_children hinline hclose 2 0 ['p'] [] []
  obtain ⟨hread, hiff⟩ := hlines ['b'] [] [] []
  rw [hiff.mpr hapart] at hread
  rw [← hsaid]
  exact ⟨hline, hread⟩

/-- Two texts that stand as they are: one word on one line, and two on two lines. -/
theorem not_said_children_two_texts :
    (readElement? scriptLength? ['<', 'p']
        (unlines (markupLines 2 0 (.element ['p'] [] [] [.text ['a'], .text ['b']]))) =
      some [.text ['a', 'b']]) ∧
    (readElement? scriptLength? ['<', 'p']
        (unlines (markupLines 2 0
          (.element ['p'] [] [] [.text ['a'], .text ['b'], .element ['b'] [] [] []]))) =
      some [.text ['a', ' ', 'b']]) :=
  ⟨rfl, rfl⟩

end Offside.Markup
