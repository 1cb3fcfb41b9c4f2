import Offside.Proofs.Template.Element
import Offside.Proofs.Template.Outline

/-! The rows of a tree: its nodes and branches in the order in which their lines stand. A tree that
grows at its open edge gets its new rows at the end, and writing a tree shows the ink of its
rows. -/
namespace Offside

open Text

/-- A node or a branch, as one meets it when one goes through a tree. -/
structure Row where
  depth : Nat
  /-- Whether it stands on the line of the branch or of the element that holds it. -/
  hosted : Bool
  /-- The line where it starts. -/
  line : Option Int
  /-- What is written for it, but for blanks. -/
  written : Text

def lineOf (span : Option Span) : Option Int := span.map (·.start.line)

/-- Whether a span starts on the line of a host. -/
def isHosted (host : Option Int) (span : Option Span) : Bool :=
  host.isSome && host == lineOf span

namespace Node

mutual

/-- The rows of a node. The host is the line of the branch that holds it. -/
def rows (depth : Nat) (host : Option Int) : Node → List Row
  | .element name classes children span =>
    ⟨depth, isHosted host span, lineOf span, name ++ classes.flatMap ('.' :: ·)⟩ ::
      rowsIn (depth + 1) none children
  | .text parts placement span =>
    [⟨depth, placement == .inline, lineOf span, '|' :: Pipe.payload parts⟩]
  | .expression value span => [⟨depth, isHosted host span, lineOf span, writeExpression value⟩]
  | .conditional branches _ => rowsOf depth true branches
  | .loop variableName iterable body span =>
    ⟨depth, false, lineOf span, ['@', 'f', 'o', 'r'] ++ variableName ++ ['i', 'n'] ++ iterable⟩ ::
      rowsIn (depth + 1) none body
  | .foreign _ => []

def rowsIn (depth : Nat) (host : Option Int) : List Node → List Row
  | [] => []
  | n :: ns => n.rows depth host ++ rowsIn depth host ns

def rowsOf (depth : Nat) (isFirst : Bool) : List (Branch Node) → List Row
  | [] => []
  | b :: bs => rowsAt depth isFirst b ++ rowsOf depth false bs

def rowsAt (depth : Nat) (isFirst : Bool) : Branch Node → List Row
  | ⟨test, body, span⟩ =>
    ⟨depth, false, lineOf span, writeHead isFirst test⟩ :: rowsIn (depth + 1) (lineOf span) body

end

variable {depth : Nat} {host : Option Int} {n : Node} {f : List Node → List Node}
  {ns body : List Node} {d : Nat} {branches : List (Branch Node)} {isFirst : Bool}

@[simp] theorem rowsIn_append (depth : Nat) (host : Option Int) (ns ms : List Node) :
    rowsIn depth host (ns ++ ms) = rowsIn depth host ns ++ rowsIn depth host ms := by
  induction ns with
  | nil => rfl
  | cons n ns ih => simp [rowsIn, ih]

@[simp] theorem rowsIn_singleton (depth : Nat) (host : Option Int) (n : Node) :
    rowsIn depth host [n] = n.rows depth host := by
  simp [rowsIn]

/-- The rows of a branch that is added come last. -/
theorem rowsOf_concat (h : branches ≠ []) (depth : Nat) (isFirst : Bool) (b : Branch Node) :
    rowsOf depth isFirst (branches ++ [b]) =
      rowsOf depth isFirst branches ++ rowsAt depth false b := by
  induction branches generalizing isFirst with
  | nil => exact (h rfl).elim
  | cons c cs ih =>
    cases cs with
    | nil => simp [rowsOf]
    | cons c' cs =>
      have ih := ih (by simp) false
      have hcons : rowsOf depth isFirst (c :: c' :: cs) =
          rowsAt depth isFirst c ++ rowsOf depth false (c' :: cs) := by rw [rowsOf]
      rw [List.cons_append, rowsOf, ih, hcons, List.append_assoc]

/-- The host matters only to a node on its line. -/
theorem rows_of_ne (h : host ≠ n.startLine?) : n.rows depth host = n.rows depth none := by
  cases n with
  | element name classes children span =>
    have hne : isHosted host span = false := by
      simp only [isHosted, Bool.and_eq_false_iff, beq_eq_false_iff_ne]
      exact Or.inr h
    rw [rows, rows, hne]
    rfl
  | expression value span =>
    have hne : isHosted host span = false := by
      simp only [isHosted, Bool.and_eq_false_iff, beq_eq_false_iff_ne]
      exact Or.inr h
    rw [rows, rows, hne]
    rfl
  | _ => rfl

/-- The rows of the list that deeper lines go to are the last rows of a node. -/
theorem exists_rows_mapBody (h : n.body? = some body) (depth : Nat) (host : Option Int) :
    ∃ pre host', (host' = none ∨ ∃ r ∈ pre, r.hosted = false ∧ r.line = host') ∧
      n.rows depth host = pre ++ rowsIn (depth + 1) host' body ∧
      ∀ f, (n.mapBody f).rows depth host = pre ++ rowsIn (depth + 1) host' (f body) := by
  cases n with
  | element name classes children span =>
    obtain rfl := Option.some.inj h
    exact ⟨[_], none, Or.inl rfl, rfl, fun f => rfl⟩
  | text parts placement span => cases h
  | expression value span => cases h
  | conditional branches span =>
    obtain ⟨b, hb, rfl⟩ := Option.map_eq_some_iff.mp h
    obtain ⟨front, rfl⟩ := List.getLast?_eq_some_iff.mp hb
    obtain ⟨test, body, bspan⟩ := b
    cases front with
    | nil =>
      refine ⟨[⟨depth, false, lineOf bspan, writeHead true test⟩], lineOf bspan,
        Or.inr ⟨_, List.mem_singleton_self _, rfl, rfl⟩, ?_, fun f => ?_⟩
      · simp [rows, rowsOf, rowsAt]
      · simp [mapBody, onLast, Branch.mapBody, rows, rowsOf, rowsAt]
    | cons c front =>
      refine ⟨rowsOf depth true (c :: front) ++
          [⟨depth, false, lineOf bspan, writeHead false test⟩],
        lineOf bspan,
        Or.inr ⟨_, List.mem_append_right _ (List.mem_singleton_self _), rfl, rfl⟩, ?_,
        fun f => ?_⟩
      · rw [rows, rowsOf_concat (by simp), rowsAt]
        simp
      · rw [mapBody, onLast_concat, rows, rowsOf_concat (by simp), Branch.mapBody, rowsAt]
        simp
  | loop variableName iterable inner span =>
    obtain rfl := Option.some.inj h
    exact ⟨[_], none, Or.inl rfl, rfl, fun f => rfl⟩
  | foreign label => cases h

/-- The rows of a list at the open edge are the last rows of a tree. -/
theorem exists_rows_modifyAt (h : Outline.listAt? d ns = some body) (depth : Nat)
    (host : Option Int) :
    ∃ pre host', (host' = none ∨ host' = host ∨ ∃ r ∈ pre, r.hosted = false ∧ r.line = host') ∧
      rowsIn depth host ns = pre ++ rowsIn (depth + d) host' body ∧
      ∀ f, rowsIn depth host (Outline.modifyAt f d ns) =
        pre ++ rowsIn (depth + d) host' (f body) := by
  induction d generalizing ns depth host with
  | zero =>
    obtain rfl := Option.some.inj h
    exact ⟨[], host, Or.inr (Or.inl rfl), rfl, fun f => rfl⟩
  | succ d ih =>
    obtain ⟨front, n, inner, rfl, hinner, h⟩ := Outline.listAt?_succ_eq_some h
    obtain ⟨pre, host₁, hhost₁, hrows, hmap⟩ := exists_rows_mapBody hinner depth host
    obtain ⟨pre', host₂, hhost₂, hrows', hmap'⟩ := ih h (depth + 1) host₁
    have hd : depth + 1 + d = depth + (d + 1) := by omega
    rw [hd] at hrows' hmap'
    refine ⟨rowsIn depth host front ++ pre ++ pre', host₂, ?_, ?_, fun f => ?_⟩
    · rcases hhost₂ with h₂ | h₂ | ⟨r, hr, h₂⟩
      · exact Or.inl h₂
      · rcases hhost₁ with h₁ | ⟨r, hr, hhosted, h₁⟩
        · exact Or.inl (h₂.trans h₁)
        · exact Or.inr (Or.inr ⟨r, by simp [hr], hhosted, h₁.trans h₂.symm⟩)
      · exact Or.inr (Or.inr ⟨r, by simp [hr], h₂⟩)
    · rw [rowsIn_append, rowsIn_singleton, hrows, hrows']
      simp
    · rw [Outline.modifyAt, onLast_concat, rowsIn_append, rowsIn_singleton, hmap, hmap']
      simp

/-! ## What can be seen -/

def inked (rs : List Row) : Text := rs.flatMap fun r => ink r.written

@[simp] theorem inked_nil : inked [] = [] := rfl

@[simp] theorem inked_cons (r : Row) (rs : List Row) :
    inked (r :: rs) = ink r.written ++ inked rs := rfl

@[simp] theorem inked_append (rs qs : List Row) : inked (rs ++ qs) = inked rs ++ inked qs :=
  List.flatMap_append

theorem ink_written_pipe (ps : List Part) (spaced : Bool) :
    ink (Pipe.write spaced ps) = ink ('|' :: Pipe.payload ps) := by
  rw [Pipe.ink_write, ink_cons_of_solid rfl]

/-- A body on the line of its branch shows the ink of its rows. -/
theorem ink_inlineBody? {o : Layout} {t : Text} (h : inlineBody? o ns = some t) (depth : Nat)
    (host : Option Int) : ink t = inked (rowsIn depth host ns) := by
  rw [inlineBody?.eq_def] at h
  split at h
  · obtain rfl := Option.some.inj h
    simp [rows, ink_written_pipe]
  · obtain rfl := Option.some.inj h
    simp [rows]
  · obtain rfl := Option.some.inj h
    simp only [rows, rowsIn, inked_cons, inked_nil, List.append_nil]
    exact ink_writeSelector ..
  · obtain rfl := Option.some.inj h
    simp only [rowsIn_singleton, rows, inked_cons, inked_nil, List.append_nil]
    rw [ink_append, ink_writeSelector, ink_cons_of_blank rfl, ink_written_pipe]
  · cases h

mutual

/-- The lines of a node show the ink of its rows. -/
theorem ink_lines (o : Layout) : ∀ (n : Node) (level depth : Nat) (host : Option Int),
    (n.lines o level).flatMap ink = inked (n.rows depth host)
  | .element name classes children span, level, depth, host => by
    by_cases hled : Led children
    · obtain ⟨ps, span', rest, rfl⟩ := hled
      simp only [lines, rows, rowsIn, List.flatMap_cons, inked_cons, List.cons_append,
        List.nil_append, ink_append, indentation, ink_replicate, ink_writeSelector,
        ink_cons_of_blank (show isBlank ' ' = true from rfl), ink_written_pipe,
        ink_linesOf o rest (level + 1) (depth + 1) none, List.append_assoc]
    · simp only [lines_element_of_not_led hled, rows, List.flatMap_cons, inked_cons, ink_append,
        indentation, ink_replicate, ink_writeSelector, List.nil_append,
        ink_linesOf o children (level + 1) (depth + 1) none]
  | .text ps _ _, level, depth, host => by
    simp [lines, rows, indentation, ink_written_pipe]
  | .expression v _, level, depth, host => by
    simp [lines, rows, indentation]
  | .conditional bs _, level, depth, host => by
    rw [lines, rows, ink_branchLines o bs level depth true]
  | .loop v i body _, level, depth, host => by
    simp only [lines, rows, List.flatMap_cons, inked_cons, ink_append, indentation, ink_replicate,
      List.nil_append, ink_linesOf o body (level + 1) (depth + 1) none]
    rfl
  | .foreign _, _, _, _ => rfl

theorem ink_linesOf (o : Layout) : ∀ (ns : List Node) (level depth : Nat) (host : Option Int),
    (linesOf o level ns).flatMap ink = inked (rowsIn depth host ns)
  | [], _, _, _ => rfl
  | n :: ns, level, depth, host => by
    rw [linesOf, rowsIn, List.flatMap_append, inked_append, ink_lines o n level depth host,
      ink_linesOf o ns level depth host]

theorem ink_branchLines (o : Layout) : ∀ (bs : List (Branch Node)) (level depth : Nat)
    (isFirst : Bool), (branchLines o level isFirst bs).flatMap ink = inked (rowsOf depth isFirst bs)
  | [], _, _, _ => rfl
  | b :: bs, level, depth, isFirst => by
    rw [branchLines, rowsOf, List.flatMap_append, inked_append,
      ink_linesOfBranch o b level depth isFirst, ink_branchLines o bs level depth false]

theorem ink_linesOfBranch (o : Layout) : ∀ (b : Branch Node) (level depth : Nat) (isFirst : Bool),
    (linesOfBranch o level isFirst b).flatMap ink = inked (rowsAt depth isFirst b)
  | ⟨test, body, span⟩, level, depth, isFirst => by
    rw [linesOfBranch, rowsAt]
    split
    · next t ht =>
      simp only [List.flatMap_cons, List.flatMap_nil, List.append_nil, ink_append, indentation,
        ink_replicate, List.nil_append, ink_cons_of_blank (show isBlank ' ' = true from rfl),
        inked_cons, ink_inlineBody? ht (depth + 1) (lineOf span)]
    · simp only [List.flatMap_cons, ink_append, indentation, ink_replicate, List.nil_append,
        inked_cons, ink_linesOf o body (level + 1) (depth + 1) (lineOf span)]

end

end Node

end Offside
