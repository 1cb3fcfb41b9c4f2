import Offside.Proofs.Template.Header
import Offside.Proofs.Template.Margin
import Offside.Template.Reader

/-! The regions of a template, told from its lines alone. A line at the left margin says by its kind
where it belongs, and the indented lines below a block belong to the block. -/
namespace Offside

open Text

/-- The parts of a template in the order in which they are written. -/
inductive Region
  | id
  | props
  | classes
  | body
deriving DecidableEq, Repr

namespace Region

def ofKind : LineKind → Region
  | .id => id
  | .props => props
  | .classes => classes
  | _ => body

/-- The region of the indented lines below a line. Nothing belongs to the id but its own line. -/
def below : Region → Region
  | id => body
  | r => r

/-- The region of a line that is not blank, behind a line of the region `above`. -/
def ofLine (above : Region) (s : Text) : Region :=
  if Margin.spaces s = 0 then ofKind (LineKind.ofText (trimEnd s)) else above.below

/-- The lines that are not blank, each with its region. -/
def sort (above : Region) : List Line → List (Region × Line)
  | [] => []
  | l :: ls =>
    if l.text.all isBlank then sort above ls
    else (ofLine above l.text, l) :: sort (ofLine above l.text) ls

/-- The lines of a region among lines with their regions. -/
def pick (r : Region) (ls : List (Region × Line)) : List Line :=
  ls.filterMap fun p => if r = p.1 then some p.2 else none

/-- The lines of a region in the text of a template, in their order. -/
def linesIn (r : Region) (s : Text) : List Line :=
  r.pick (sort body (Line.ofText (unifyNewlines s)))

/-- The ink of a line with a dot behind the first equals sign. -/
def dotted : Text → Text
  | [] => []
  | '=' :: '.' :: s => '=' :: '.' :: s
  | '=' :: s => '=' :: '.' :: s
  | c :: s => c :: dotted s

/-- What can be seen of a line of a region once it is written anew: an alias gets its first dot. -/
def shown (r : Region) (l : Line) : Text :=
  match r with
  | classes => dotted (ink l.text)
  | _ => ink l.text

variable {above r : Region} {s : Text} {l : Line} {ls : List Line} {level : Nat} {content : Text}

theorem sort_cons_of_blank (h : Blank l.text) (above : Region) (ls : List Line) :
    sort above (l :: ls) = sort above ls := by
  rw [sort, if_pos (List.all_eq_true.mpr h)]

theorem sort_cons (h : ¬ Blank l.text) (above : Region) (ls : List Line) :
    sort above (l :: ls) = (ofLine above l.text, l) :: sort (ofLine above l.text) ls := by
  rw [sort, if_neg fun hb => h (List.all_eq_true.mp hb)]

theorem pick_cons (r above : Region) (l : Line) (ls : List (Region × Line)) :
    r.pick ((above, l) :: ls) = (if r = above then [l] else []) ++ r.pick ls := by
  rw [pick, List.filterMap_cons]
  split <;> rename_i h <;> split at h <;> simp_all [pick]

theorem ofLine_zero (h : Margin.ofLine s = .level 0 content) :
    ofLine above s = ofKind (LineKind.ofText content) := by
  obtain ⟨hspaces, hcontent, -⟩ := Margin.ofLine_level h
  rw [ofLine, if_pos (by simpa using hspaces), hcontent, hspaces]
  rfl

theorem ofLine_succ (h : Margin.ofLine s = .level (level + 1) content) :
    ofLine above s = above.below := by
  obtain ⟨hspaces, -⟩ := Margin.ofLine_level h
  rw [ofLine, if_neg (by omega)]

theorem ink_of_level (h : Margin.ofLine s = .level level content) : ink s = ink content := by
  obtain ⟨-, hcontent, -⟩ := Margin.ofLine_level h
  rw [hcontent, ink_trimEnd]
  conv => lhs; rw [(Margin.eq_replicate_append s).1]
  rw [ink_append, ink_replicate, List.nil_append]

/-- An alias gets its dot behind the equals sign that follows its name. -/
theorem dotted_append {name right : Text} (hn : IsIdentifier name) :
    dotted (name ++ '=' :: right) =
      name ++ '=' :: (if right.head? = some '.' then right else '.' :: right) := by
  have hne : ∀ c ∈ name, c ≠ '=' := by
    rintro c hc rfl
    have := hn.chars '=' hc
    revert this
    decide
  clear hn
  induction name with
  | nil =>
    cases right with
    | nil => rfl
    | cons d right =>
      by_cases hd : d = '.'
      · subst hd
        rfl
      · rw [List.nil_append, dotted]
        · simp [hd]
        · rintro t ⟨⟩
          exact hd rfl
  | cons c name ih =>
    have hc : c ≠ '=' := hne c List.mem_cons_self
    rw [List.cons_append, dotted, ih fun d hd => hne d (List.mem_cons_of_mem c hd)]
    · rfl
    · rintro t rfl
      exact (hc rfl).elim
    · exact hc

end Region

end Offside
